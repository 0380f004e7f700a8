import DaeRs.Lib.Octets

/-! The raw `bpf` calls of `ebpf.rs`. Its loops over the keys of a map pass the address of the
previous key where the system call takes the size of its attributes, and their commands 3, 4 and 5
are not the ones of the comments: the kernel deletes an element, gives the next key and loads a
program. -/

namespace DaeRs.Control

open Octets

/-- The commands on the elements of a map, from `BPF_MAP_LOOKUP_ELEM` to `BPF_MAP_GET_NEXT_KEY`. -/
def mapCommands : List Nat := [1,2,3,4]

/-- The descriptor in the attributes of such a command; what was not copied of them is zero. -/
def attrFd (attr : List UInt8) : UInt32 := UInt32.ofNat (ofLE (attr.take 4))

/-- What a raw call depends on: the descriptors that are maps, the attributes on which a command
succeeds, the memory behind the descriptor, and the buffers' addresses. -/
structure RawBpf where
  isMap : UInt32 → Bool
  succeeds : Nat → List UInt8 → Bool
  behind : List UInt8
  address : Nat → UInt32
  stdin : isMap 0=false
  map_command : ∀ cmd∈mapCommands,∀ attr,succeeds cmd attr=true → isMap (attrFd attr)=true

namespace RawBpf

variable (b : RawBpf) (fd : UInt32)

/-- `libc::syscall(SYS_bpf, cmd, &fd, ..)`: the kernel copies as many bytes as the third argument
says, which is meant as a key, and looks at no further one. -/
def syscall (cmd : Nat) (third : UInt32) : Bool :=
  b.succeeds cmd ((toLE 4 fd.toNat++b.behind).take third.toNat)

theorem syscall_null {cmd : Nat} (hcmd : cmd∈mapCommands) : b.syscall fd cmd 0=false := by
  rw [Bool.eq_false_iff]
  intro h
  have hmap := b.map_command cmd hcmd _ h
  have hzero : attrFd ((toLE 4 fd.toNat++b.behind).take (0 : UInt32).toNat)=0 := rfl
  rw [hzero,b.stdin] at hmap
  cases hmap

/-- The buffers for the next key that a loop has come to after so many rounds, from the buffer `i`
on. No call writes to them. -/
def nextKeys (keySize : Nat) : Nat → Nat → List (Nat×List UInt8)
  | 0,_ => []
  | rounds+1,i =>
    if b.syscall fd 3 (if i=0 then 0 else b.address i) then
      (i+1,List.replicate keySize 0)::nextKeys keySize rounds (i+1)
    else []

theorem nextKeys_nil (keySize rounds : Nat) : b.nextKeys fd keySize rounds 0=[] := by
  cases rounds with
  | zero => rfl
  | succ rounds =>
    rw [nextKeys,if_pos rfl,b.syscall_null fd (by decide)]
    rfl

def countMapEntries (rounds : Nat) : Nat := (b.nextKeys fd 64 rounds 0).length

/-- The keys and values that the loop hands on: those of the buffers whose lookup succeeds. -/
def perKeyScanMap (keySize valueSize rounds : Nat) : List (List UInt8×List UInt8) :=
  ((b.nextKeys fd keySize rounds 0).filter fun p => b.syscall fd 4 (b.address p.1)).map
    fun p => (p.2,List.replicate valueSize 0)

theorem countMapEntries_zero (rounds : Nat) : b.countMapEntries fd rounds=0 := by
  rw [countMapEntries,nextKeys_nil]
  rfl

theorem perKeyScanMap_nil (keySize valueSize rounds : Nat) :
    b.perKeyScanMap fd keySize valueSize rounds=[] := by
  rw [perKeyScanMap,nextKeys_nil]
  rfl

end RawBpf

end DaeRs.Control
