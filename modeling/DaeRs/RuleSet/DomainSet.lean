import DaeRs.Lib.BinarySearch
import DaeRs.Net.Parse
import Mathlib.Data.List.Sort

/-! Domain patterns, their compiled form, and references to rule sets. -/

namespace DaeRs.RuleSet

open RustStr RustVec Net

inductive DomainPatternType where
  | suffix
  | keyword
  | full
  | regex
  | domain
  deriving DecidableEq

structure DomainPattern where
  patternType : DomainPatternType
  value : String
  deriving DecidableEq

/-- The third-party parsers: `Regex::new` with `is_match`, and `IpNet::from_str`. -/
structure Env where
  regexNew : String → Option (String → Bool)
  ipNetFromStr : String → Option IpNet

def Env.empty : Env := ⟨fun _ => none,fun _ => none⟩

inductive RuleSetRef where
  | set (name : String)
  | plain (value : String)
  deriving DecidableEq

def parseRef (value : String) : RuleSetRef :=
  let v := trim value
  match stripStart v "set:" with
  | some name => .set (trim name)
  | none => .plain v

structure RuleSetCache where
  getSetIps : String → Option (List IpNet)
  getSetDomains : String → Option (List DomainPattern)

structure SuffixTrieNode where
  children : List (String×Nat)
  terminal : Bool
  deriving DecidableEq

/-- A trie over reversed labels; node 0 is the root and children are node indices. -/
structure SuffixTrie where
  nodes : List SuffixTrieNode
  deriving DecidableEq

namespace SuffixTrie

def new : SuffixTrie := ⟨[⟨[],false⟩]⟩

def node (t : SuffixTrie) (i : Nat) : SuffixTrieNode := t.nodes.getD i ⟨[],false⟩

def descend (t : SuffixTrie) (i : Nat) (label : String) : SuffixTrie×Nat :=
  match (t.node i).children.lookup label with
  | some next => (t,next)
  | none =>
    let idx := t.nodes.length
    let grown := t.nodes++[⟨[],false⟩]
    let parent := t.node i
    (⟨grown.set i { parent with children := (label,idx)::parent.children }⟩,idx)

def insertLabels : SuffixTrie → Nat → List String → SuffixTrie
  | t,i,[] => ⟨t.nodes.set i { t.node i with terminal := true }⟩
  | t,i,label::labels =>
    let (t,next) := t.descend i label
    insertLabels t next labels

def insert (t : SuffixTrie) (value : String) : SuffixTrie :=
  t.insertLabels 0 (split value '.').reverse

def containsLabels (t : SuffixTrie) : Nat → List String → Bool
  | _,[] => false
  | i,label::labels =>
    match (t.node i).children.lookup label with
    | none => false
    | some next => (t.node next).terminal || t.containsLabels next labels

def contains (t : SuffixTrie) (qname : String) : Bool :=
  t.containsLabels 0 (split qname '.').reverse

end SuffixTrie

def sortDedup (l : List String) : List String := (l.insertionSort fun a b => a≤b).dedup

structure CompiledDomainSet where
  suffix : SuffixTrie
  full : List String
  domain : List String
  keyword : List String
  regex : List String
  deriving DecidableEq

def DomainPattern.compiledValue (p : DomainPattern) : String :=
  match p.patternType with
  | .suffix | .domain => toAsciiLowercase (trimStartMatches p.value '.')
  | .full => toAsciiLowercase (trimEndMatches p.value '.')
  | .keyword => toAsciiLowercase p.value
  | .regex => p.value

namespace CompiledDomainSet

def valuesOf (ty : DomainPatternType) (patterns : List DomainPattern) : List String :=
  ((patterns.filter fun p => p.patternType=ty).map DomainPattern.compiledValue).filter (· ≠ "")

def compile (patterns : List DomainPattern) : CompiledDomainSet where
  suffix := (valuesOf .suffix patterns).foldl SuffixTrie.insert SuffixTrie.new
  full := sortDedup (valuesOf .full patterns)
  domain := sortDedup (valuesOf .domain patterns)
  keyword := sortDedup (valuesOf .keyword patterns)
  regex := sortDedup (valuesOf .regex patterns)

def dotSuffixes : List Char → List (List Char)
  | [] => []
  | c::cs => if c = '.' then cs::dotSuffixes cs else dotSuffixes cs

def domainMatches (s : CompiledDomainSet) (q : String) : Bool :=
  (dotSuffixes q.toList).any fun suffix => binarySearch s.domain (String.ofList suffix)

def normalizeQname (qname : String) : String := toAsciiLowercase (trimEndMatches (trim qname) '.')

/-- `CompiledDomainSet::matches`. -/
def matchesQname (env : Env) (s : CompiledDomainSet) (qname : String) : Bool :=
  let q := normalizeQname qname
  if q = "" then false
  else s.suffix.contains q || binarySearch s.full q || s.domainMatches q ||
    s.keyword.any (fun k => RustStr.contains q k) ||
    (s.regex.filterMap env.regexNew).any (fun re => re q)

end CompiledDomainSet

/-- The key before the colon selects the pattern type; a bare value is a suffix. -/
def domainStringToPattern (s : String) : DomainPattern :=
  match splitOnce s ':' with
  | some (key,val) =>
    let ty := match key with
      | "full" => DomainPatternType.full
      | "keyword" | "contains" => .keyword
      | "regex" => .regex
      | "domain" => .domain
      | _ => .suffix
    ⟨ty,val⟩
  | none => ⟨.suffix,s⟩

def domainStringsToPatterns (patterns : List String) : List DomainPattern :=
  patterns.map domainStringToPattern

end DaeRs.RuleSet
