import DaeRs.Routing.Rule

/-! Rules that are written from their functions, and read back. -/

namespace DaeRs.Routing

open RustStr Config List
open String (toList_append ofList_toList toList_intercalate)

/-- How many parentheses are open after a text; `none` if it closes one that is not open. -/
def parenDepth : List Char → Nat → Option Nat
  | [],depth => some depth
  | c::cs,depth =>
    if c = '(' then parenDepth cs (depth+1)
    else if c = ')' then
      if depth=0 then none else parenDepth cs (depth-1)
    else parenDepth cs depth

/-- A parameter without blanks around it, with balanced parentheses and commas only inside
them. -/
structure PlainParam (p : String) : Prop where
  trimmed : trim p=p
  ne_empty : p ≠ ""
  balanced : parenDepth p.toList 0=some 0
  inner_commas : ∀ before after,p.toList=before ++ ',' :: after → parenDepth before 0≠some 0

structure Function.Plain (f : Function) : Prop where
  name : ∀ c∈f.name.toList,c ≠ '(' ∧ c ≠ '&' ∧ c ≠ '!' ∧ isWhitespace c=false
  params : ∀ p∈f.rawParams,PlainParam p

def Function.call (f : Function) : String := f.name ++ "(" ++ ", ".intercalate f.rawParams ++ ")"

def Function.print (f : Function) : String := if f.not then "!" ++ f.call else f.call

def printFunctions (fs : List Function) : String := "&&".intercalate (fs.map Function.print)

theorem parenDepth_append (a b : List Char) : ∀ depth : Nat,
    parenDepth (a++b) depth=(parenDepth a depth).bind (parenDepth b) := by
  induction a with
  | nil =>
    intro depth
    rfl
  | cons c a ih =>
    intro depth
    rw [cons_append,parenDepth,parenDepth]
    split_ifs
    · exact ih (depth+1)
    · rfl
    · exact ih (depth-1)
    · exact ih depth

theorem commaLoop_segment {seg : List Char} (rest : List Char) : ∀ {current : List Char}
    {depth depth' : Nat},parenDepth seg depth=some depth' →
    (∀ before after,seg=before ++ ',' :: after → parenDepth before depth≠some 0) →
    commaLoop (seg++rest) current depth=commaLoop rest (seg.reverse++current) depth' := by
  induction seg with
  | nil =>
    intro current depth depth' hdepth _
    cases hdepth
    rfl
  | cons c seg ih =>
    intro current depth depth' hdepth hcommas
    have htail {d : Nat} (hc : ∀ cs,parenDepth (c::cs) depth=parenDepth cs d) :
        ∀ before after,seg=before ++ ',' :: after → parenDepth before d≠some 0 := by
      intro before after hseg
      rw [← hc before]
      exact hcommas (c::before) after (by rw [hseg,cons_append])
    rw [cons_append,commaLoop,reverse_cons,append_assoc,singleton_append]
    by_cases hopen : c = '('
    · have hc (cs : List Char) : parenDepth (c::cs) depth=parenDepth cs (depth+1) := by
        rw [parenDepth,if_pos hopen]
      rw [if_pos hopen]
      exact ih ((hc seg).symm.trans hdepth) (htail hc)
    rw [if_neg hopen]
    by_cases hclose : c = ')'
    · have hpos : depth≠0 := by
        intro hzero
        rw [parenDepth,if_neg hopen,if_pos hclose,if_pos hzero] at hdepth
        nomatch hdepth
      have hc (cs : List Char) : parenDepth (c::cs) depth=parenDepth cs (depth-1) := by
        rw [parenDepth,if_neg hopen,if_pos hclose,if_neg hpos]
      rw [if_pos hclose]
      exact ih ((hc seg).symm.trans hdepth) (htail hc)
    rw [if_neg hclose]
    have hc (cs : List Char) : parenDepth (c::cs) depth=parenDepth cs depth := by
      rw [parenDepth,if_neg hopen,if_neg hclose]
    have hcomma : ¬(c = ',' ∧ depth=0) := by
      intro h
      refine hcommas [] seg (by rw [h.1,nil_append]) ?_
      rw [h.2,parenDepth]
    rw [if_neg hcomma]
    exact ih ((hc seg).symm.trans hdepth) (htail hc)

theorem commaLoop_param {p : String} (h : PlainParam p) {b : List Char} (hb : b=[] ∨ b=[' '])
    (rest : List Char) :
    commaLoop (b++(p.toList++rest)) [] 0=commaLoop rest (b++p.toList).reverse 0 := by
  have hdepth : parenDepth (b++p.toList) 0=some 0 := by
    rcases hb with rfl | rfl
    all_goals exact h.balanced
  have hcommas : ∀ before after,b++p.toList=before ++ ',' :: after →
      parenDepth before 0≠some 0 := by
    intro before after heq
    rcases hb with rfl | rfl
    · exact h.inner_commas before after heq
    · cases before with
      | nil => nomatch (List.cons.inj heq).1
      | cons c before =>
        obtain ⟨hc,htail⟩ := List.cons.inj heq
        rw [← hc]
        exact h.inner_commas before after htail
  rw [← append_assoc,commaLoop_segment rest hdepth hcommas,append_nil]

theorem pushTrimmed_param {p : String} (h : PlainParam p) {b : List Char}
    (hb : b=[] ∨ b=[' ']) (parts : List String) :
    pushTrimmed (b++p.toList).reverse parts=p::parts := by
  have hblank : ∀ c∈b,isWhitespace c=true := by
    rcases hb with rfl | rfl
    · exact forall_mem_nil _
    · exact forall_mem_singleton.2 rfl
  have htrim : trim (String.ofList (b++p.toList))=p := by
    have hsurround := trim_surround hblank (forall_mem_nil _) p
    rw [append_nil] at hsurround
    rw [hsurround,h.trimmed]
  unfold pushTrimmed
  rw [reverse_reverse,htrim,if_neg h.ne_empty]

variable {params : List String}

theorem commaLoop_params (h : ∀ p∈params,PlainParam p) :
    ∀ {b : List Char},params≠[] → b=[] ∨ b=[' '] →
    commaLoop (b++[',', ' '].intercalate (params.map String.toList)) [] 0=params := by
  induction params with
  | nil =>
    intro b hne
    exact absurd rfl hne
  | cons p params ih =>
    intro b _ hb
    have hp := h p mem_cons_self
    cases params with
    | nil =>
      rw [map_singleton,intercalate_singleton]
      have hparam := commaLoop_param hp hb []
      rw [append_nil] at hparam
      rw [hparam,commaLoop,pushTrimmed_param hp hb]
    | cons q params =>
      have hrest := ih (fun x hx => h x (mem_cons_of_mem p hx)) (cons_ne_nil q params)
        (Or.inr rfl)
      rw [map_cons,map_cons,intercalate_cons_cons,append_assoc,
        commaLoop_param hp hb,cons_append,commaLoop,if_neg (by decide),if_neg (by decide),
        if_pos ⟨rfl,rfl⟩,pushTrimmed_param hp hb]
      rw [map_cons] at hrest
      exact congrArg (p::·) hrest

theorem parseCommaSeparated_params (h : ∀ p∈params,PlainParam p) :
    parseCommaSeparated (", ".intercalate params)=params := by
  have hsep : ", ".toList=[',', ' '] := rfl
  rw [parseCommaSeparated,toList_intercalate,hsep]
  by_cases hne : params=[]
  · rw [hne]
    rfl
  · exact commaLoop_params h hne (Or.inl rfl)

theorem andLoop_collect {ch : Char} {depth : Nat} (h : ¬(ch = '&' ∧ depth=0))
    (rest current : List Char) :
    andLoop (ch::rest) current depth=andLoop rest (ch::current)
      (if ch = '(' then depth+1 else if ch = ')' then depth-1 else depth) := by
  rw [andLoop.eq_def]
  dsimp only
  rw [if_neg h]
  split_ifs
  · rfl
  · rfl
  · rfl

theorem andLoop_and (rest current : List Char) : andLoop ('&' :: '&' :: rest) (')' :: current) 0 =
      pushTrimmed (')' :: current) (andLoop rest [] 0) := by
  rw [andLoop,if_neg (by decide),if_neg (by decide),if_pos ⟨rfl,rfl⟩,andLoop,
    if_neg (by decide),if_neg (by decide),if_pos ⟨rfl,rfl⟩]
  intro before h
  nomatch (List.cons.inj h).1

theorem andLoop_name {name : List Char} (h : ∀ c∈name,c ≠ '(' ∧ c ≠ '&') (rest : List Char) :
    ∀ current : List Char,andLoop (name++rest) current 0=andLoop rest (name.reverse++current) 0 := by
  induction name with
  | nil =>
    intro current
    rfl
  | cons c name ih =>
    intro current
    obtain ⟨hopen,hand⟩ := h c mem_cons_self
    have hrest := ih (fun x hx => h x (mem_cons_of_mem c hx)) (c::current)
    rw [cons_append,andLoop_collect (fun h => hand h.1),if_neg hopen,reverse_cons,
      append_assoc,singleton_append]
    split_ifs
    · exact hrest
    · exact hrest

theorem andLoop_inner {inner : List Char} (rest : List Char) : ∀ {current : List Char}
    {depth depth' : Nat},parenDepth inner depth=some depth' →
    andLoop (inner++rest) current (depth+1) =andLoop rest (inner.reverse++current) (depth'+1) := by
  induction inner with
  | nil =>
    intro current depth depth' hdepth
    cases hdepth
    rfl
  | cons c inner ih =>
    intro current depth depth' hdepth
    have hdeep : ¬(c = '&' ∧ depth+1=0) := fun h => by omega
    rw [parenDepth] at hdepth
    rw [cons_append,andLoop_collect hdeep,reverse_cons,append_assoc,singleton_append]
    split_ifs at hdepth with hopen hclose hzero
    · rw [if_pos hopen]
      exact ih hdepth
    · have hsub : depth+1-1=depth-1+1 := by omega
      rw [if_neg hopen,if_pos hclose,hsub]
      exact ih hdepth
    · rw [if_neg hopen,if_neg hclose]
      exact ih hdepth

theorem parenDepth_params (h : ∀ p∈params,PlainParam p) :
    parenDepth (", ".intercalate params).toList 0=some 0 := by
  have hsep : ", ".toList=[',', ' '] := rfl
  rw [toList_intercalate,hsep]
  induction params with
  | nil => rfl
  | cons p params ih =>
    have hp := (h p mem_cons_self).balanced
    cases params with
    | nil =>
      rw [map_singleton,intercalate_singleton]
      exact hp
    | cons q params =>
      have hrest := ih fun x hx => h x (mem_cons_of_mem p hx)
      rw [map_cons,map_cons,intercalate_cons_cons,append_assoc,parenDepth_append,hp]
      rw [map_cons] at hrest
      exact hrest

namespace Function

theorem call_toList (f : Function) : f.call.toList =
    f.name.toList ++ '(' :: ((", ".intercalate f.rawParams).toList++[')']) := by
  unfold call
  rw [toList_append,toList_append,toList_append,append_assoc,append_assoc]
  rfl

theorem print_toList (f : Function) : f.print.toList =
    (if f.not then ['!'] else [])++(f.name.toList ++
      '(' :: ((", ".intercalate f.rawParams).toList++[')'])) := by
  unfold print
  split_ifs
  · rw [toList_append,call_toList]
    rfl
  · rw [call_toList,nil_append]

theorem call_last (f : Function) : [')'] <:+ f.call.toList := by
  rw [call_toList,← cons_append,← append_assoc]
  exact suffix_append _ _

theorem print_last (f : Function) : [')'] <:+ f.print.toList := by
  rw [print_toList,← call_toList]
  exact f.call_last.trans (suffix_append _ _)

variable {f : Function}

theorem Plain.call_first (h : f.Plain) :
    ∃ c,isWhitespace c=false ∧ c ≠ '!' ∧ [c] <+: f.call.toList := by
  rw [call_toList]
  cases hname : f.name.toList with
  | nil => exact ⟨'(',rfl,by decide,prefix_append _ _⟩
  | cons c cs =>
    have hc := h.name c (by rw [hname]; exact mem_cons_self)
    exact ⟨c,hc.2.2.2,hc.2.2.1,prefix_append _ _⟩

theorem Plain.trim_call (h : f.Plain) : trim f.call=f.call := by
  obtain ⟨c,hc,-,hstart⟩ := h.call_first
  have htrim := trim_of_ends hc rfl hstart f.call_last
  rw [ofList_toList] at htrim
  exact htrim

theorem Plain.print_first (h : f.Plain) : ∃ c,isWhitespace c=false ∧ [c] <+: f.print.toList := by
  rw [print_toList,← call_toList]
  cases f.not with
  | false =>
    obtain ⟨c,hc,-,hfirst⟩ := h.call_first
    exact ⟨c,hc,hfirst⟩
  | true => exact ⟨'!',rfl,prefix_append _ _⟩

theorem Plain.trim_print (h : f.Plain) : trim f.print=f.print := by
  obtain ⟨c,hc,hfirst⟩ := h.print_first
  have htrim := trim_of_ends hc rfl hfirst f.print_last
  rw [ofList_toList] at htrim
  exact htrim

theorem print_ne_empty (f : Function) : f.print ≠ "" := by
  intro h
  have hlist := congrArg String.toList h
  rw [print_toList] at hlist
  simp at hlist

theorem Plain.andLoop_print (h : f.Plain) (rest : List Char) :
    andLoop (f.print.toList++rest) [] 0=andLoop rest f.print.toList.reverse 0 := by
  have hhead : ∀ c∈(if f.not then ['!'] else [])++f.name.toList,c ≠ '(' ∧ c ≠ '&' := by
    intro c hc
    rcases mem_append.1 hc with hbang | hname
    · cases hnot : f.not with
      | false =>
        rw [hnot] at hbang
        nomatch hbang
      | true =>
        rw [hnot] at hbang
        rw [mem_singleton.1 hbang]
        decide
    · exact ⟨(h.name c hname).1,(h.name c hname).2.1⟩
  have hinner := parenDepth_params h.params
  rw [print_toList,← append_assoc]
  generalize (if f.not=true then ['!'] else [])++f.name.toList=head at hhead ⊢
  rw [append_assoc,andLoop_name hhead,append_nil,cons_append,
    andLoop_collect (by decide),if_pos rfl,append_assoc,andLoop_inner _ hinner,
    singleton_append,andLoop_collect (by decide),if_neg (by decide),if_pos rfl]
  simp only [reverse_append,reverse_cons,append_assoc,reverse_nil,nil_append,cons_append]

theorem Plain.fromStr_print (h : f.Plain) : fromStr f.print=.ok f := by
  have hsplit : splitOnce f.call '(' = some (f.name, ", ".intercalate f.rawParams ++ ")") := by
    have hname : '(' ∉ f.name.toList := fun hmem => (h.name '(' hmem).1 rfl
    rw [splitOnce,call_toList,splitOnceChars_append hname,Option.map_some,
      ofList_toList,String.ofList_append,ofList_toList]
  have htrim : trim f.name=f.name := trim_of_no_space fun c hc => (h.name c hc).2.2.2
  have hparams : (parseCommaSeparated (", ".intercalate f.rawParams)).map trim=f.rawParams := by
    rw [parseCommaSeparated_params h.params,map_congr_left fun p hp => (h.params p hp).trimmed,
      map_id']
  unfold fromStr
  rw [h.trim_print]
  dsimp only
  rw [if_neg f.print_ne_empty]
  cases hnot : f.not with
  | false =>
    have hprint : f.print=f.call := if_neg (by rw [hnot]; exact Bool.false_ne_true)
    have hstrip : stripStart f.print "!" = none := by
      obtain ⟨c,-,hc,rest,hrest⟩ := h.call_first
      rw [hprint,stripStart,← hrest]
      show (if '!' = c then _ else none).map _=none
      rw [if_neg (Ne.symm hc),Option.map_none]
    rw [hstrip,hprint]
    dsimp only
    rw [hsplit]
    dsimp only
    rw [stripEnd_append]
    dsimp only
    rw [htrim,hparams,← hnot]
  | true =>
    have hprint : f.print = "!" ++ f.call := if_pos hnot
    rw [hprint,stripStart_append]
    dsimp only
    rw [h.trim_call,hsplit]
    dsimp only
    rw [stripEnd_append]
    dsimp only
    rw [htrim,hparams,← hnot]

end Function

variable {fs : List Function}

theorem andLoop_functions (h : ∀ f∈fs,f.Plain) : fs≠[] →
    andLoop (['&', '&'].intercalate (fs.map fun f => f.print.toList)) [] 0 =
      fs.map Function.print := by
  induction fs with
  | nil =>
    intro hne
    exact absurd rfl hne
  | cons f fs ih =>
    intro _
    have hf := h f mem_cons_self
    have hlast : ∃ front,f.print.toList.reverse = ')' :: front := by
      obtain ⟨front,hfront⟩ := f.print_last
      exact ⟨front.reverse,by rw [← hfront,reverse_append]; rfl⟩
    have hpush (parts : List String) : pushTrimmed f.print.toList.reverse parts=f.print::parts := by
      unfold pushTrimmed
      rw [reverse_reverse,ofList_toList,hf.trim_print,if_neg f.print_ne_empty]
    cases fs with
    | nil =>
      have hprint := hf.andLoop_print []
      rw [append_nil] at hprint
      rw [map_singleton,intercalate_singleton,hprint,andLoop,hpush]
      rfl
    | cons g fs =>
      have hrest := ih (fun x hx => h x (mem_cons_of_mem f hx)) (cons_ne_nil g fs)
      obtain ⟨front,hfront⟩ := hlast
      rw [map_cons,map_cons,intercalate_cons_cons,append_assoc,
        hf.andLoop_print,hfront,cons_append,singleton_append,andLoop_and,← hfront,
        hpush]
      rw [map_cons] at hrest
      rw [hrest]
      rfl

theorem splitAndRespectingParens_print (h : ∀ f∈fs,f.Plain)
    (hne : fs≠[]) : splitAndRespectingParens (printFunctions fs)=fs.map Function.print := by
  have hsep : "&&".toList=['&', '&'] := rfl
  rw [splitAndRespectingParens,printFunctions,toList_intercalate,hsep,map_map]
  exact andLoop_functions h hne

theorem NormalizedProgram.parseFunctions_print (matchExpr : String)
    (h : ∀ f∈fs,f.Plain) : parseFunctions matchExpr (fs.map Function.print)=.ok fs := by
  induction fs with
  | nil => rfl
  | cons f fs ih =>
    have hf := h f mem_cons_self
    rw [map_cons,parseFunctions,hf.trim_print,if_neg f.print_ne_empty,hf.fromStr_print,
      ih fun x hx => h x (mem_cons_of_mem f hx)]
    rfl

theorem printFunctions_cons (f : Function) (fs : List Function) :
    ∃ rest,(printFunctions (f::fs)).toList=f.print.toList++rest := by
  rw [printFunctions,toList_intercalate]
  cases fs with
  | nil => exact ⟨[],by rw [map_singleton,map_singleton,intercalate_singleton,append_nil]⟩
  | cons g fs => exact ⟨_,by rw [map_cons,map_cons,map_cons,map_cons,
      intercalate_cons_cons,append_assoc]⟩

theorem printFunctions_last (hne : fs≠[]) : [')'] <:+ (printFunctions fs).toList := by
  rw [printFunctions,toList_intercalate]
  induction fs with
  | nil => exact absurd rfl hne
  | cons f fs ih =>
    cases fs with
    | nil =>
      rw [map_singleton,map_singleton,intercalate_singleton]
      exact f.print_last
    | cons g fs =>
      have hrest := ih (cons_ne_nil g fs)
      rw [map_cons,map_cons,map_cons,map_cons,intercalate_cons_cons]
      rw [map_cons,map_cons] at hrest
      exact hrest.trans (suffix_append _ _)

theorem trim_printFunctions (hne : fs≠[]) (h : ∀ f∈fs,f.Plain) :
    trim (printFunctions fs)=printFunctions fs := by
  obtain ⟨f,rest,rfl⟩ := exists_cons_of_ne_nil hne
  obtain ⟨c,hc,hfirst⟩ := (h f mem_cons_self).print_first
  obtain ⟨more,hmore⟩ := printFunctions_cons f rest
  have hstart : [c] <+: (printFunctions (f::rest)).toList := by
    rw [hmore]
    exact hfirst.trans (prefix_append _ _)
  have htrim := trim_of_ends hc rfl hstart (printFunctions_last hne)
  rw [ofList_toList] at htrim
  exact htrim

/-- A rule that is written from functions is read as these functions, with the outbound of its
action. -/
theorem parseRule_printFunctions {fs : List Function} (hne : fs≠[]) (h : ∀ f∈fs,f.Plain)
    (action : String) :
    NormalizedProgram.parseRule ⟨printFunctions fs,action⟩ =
      (fun outbound => ⟨fs,outbound⟩) <$> Outbound.parseAction action := by
  have hparen : '(' ∈ (printFunctions fs).toList := by
    obtain ⟨f,rest,rfl⟩ := List.exists_cons_of_ne_nil hne
    obtain ⟨more,hmore⟩ := printFunctions_cons f rest
    rw [hmore,Function.print_toList]
    simp
  have hrule : ¬(printFunctions fs = "" ∨ printFunctions fs = "fallback") := by
    intro hor
    rcases hor with hempty | hfallback
    · rw [hempty] at hparen
      nomatch hparen
    · rw [hfallback] at hparen
      revert hparen
      decide
  rw [NormalizedProgram.parseRule,trim_printFunctions hne h]
  dsimp only
  rw [if_neg hrule,splitAndRespectingParens_print h hne,NormalizedProgram.parseFunctions_print _ h]
  cases Outbound.parseAction action with
  | error e => rfl
  | ok outbound => rfl

theorem inner_commas_of_getElem {l : List Char}
    (h : ∀ n<l.length,l[n]?=some ',' → parenDepth (l.take n) 0≠some 0) :
    ∀ before after,l=before ++ ',' :: after → parenDepth before 0≠some 0 := by
  intro before after heq
  have hlength : before.length<l.length := by
    rw [heq,length_append,length_cons]
    omega
  have hget : l[before.length]?=some ',' := by
    rw [heq,getElem?_append_right (Nat.le_refl _),Nat.sub_self]
    rfl
  have hdepth := h before.length hlength hget
  rw [heq,take_left] at hdepth
  exact hdepth

theorem parseRule_printFunctions_two :
    NormalizedProgram.parseRule ⟨"!domain(regex:(a,b)c, a&&b)&&dport()", "direct"⟩ =
      .ok ⟨[⟨"domain",true,["regex:(a,b)c", "a&&b"]⟩,⟨"dport",false,[]⟩],⟨"direct",0,false⟩⟩ := by
  have hregex : PlainParam "regex:(a,b)c" := ⟨rfl,by decide,rfl,inner_commas_of_getElem (by decide)⟩
  have hand : PlainParam "a&&b" := ⟨rfl,by decide,rfl,inner_commas_of_getElem (by decide)⟩
  have hname (name : String) (hall : (name.toList.all fun c =>
      c != '(' && c != '&' && c != '!' && !isWhitespace c)=true) :
      ∀ c∈name.toList,c ≠ '(' ∧ c ≠ '&' ∧ c ≠ '!' ∧ isWhitespace c=false := by
    intro c hc
    simpa [and_assoc] using List.all_eq_true.1 hall c hc
  have hdomain : (⟨"domain",true,["regex:(a,b)c", "a&&b"]⟩ : Function).Plain := by
    refine ⟨hname "domain" rfl,fun p hp => ?_⟩
    rcases List.mem_cons.1 hp with rfl | hp
    · exact hregex
    · rw [List.mem_singleton.1 hp]
      exact hand
  have hdport : (⟨"dport",false,[]⟩ : Function).Plain := ⟨hname "dport" rfl,List.forall_mem_nil _⟩
  have hprint : printFunctions [⟨"domain",true,["regex:(a,b)c", "a&&b"]⟩,⟨"dport",false,[]⟩] =
      "!domain(regex:(a,b)c, a&&b)&&dport()" := by decide +kernel
  rw [← hprint]
  refine (parseRule_printFunctions (List.cons_ne_nil _ _) (fun f hf => ?_) "direct").trans rfl
  rcases List.mem_cons.1 hf with rfl | hf
  · exact hdomain
  · rw [List.mem_singleton.1 hf]
    exact hdport

end DaeRs.Routing
