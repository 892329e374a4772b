import Mathlib.Data.List.TakeWhile
import PointerScript.Proofs.ControlFlow
import PointerScript.Proofs.NeatText
import PointerScript.Proofs.Number.Reading
import PointerScript.Proofs.SourceLines

/-! A variable keeps what was last assigned to it. All instructions but the assignments to a name, and
setting up, leave what is stored under the name alone; so along a run its value is that of the last
assignment. A script reads the name as an operand, except that a name that spells a number without digits,
such as `inf`, is read as that number. -/

namespace PointerScript

open SourceLine

/-- Whether a text is a letter or underscore followed by letters, digits and underscores. -/
def IsName (x : String) : Prop :=
  ∃ c cs, x.toList = c :: cs ∧ Text.isNameStart c = true ∧ ∀ d ∈ cs, Text.isNameChar d = true

namespace Memory

theorem lookup_setEntry_self (x : String) (v : Number) (vars : List (String × Number)) :
    (setEntry x v vars).lookup x = some v := by
  induction vars with
  | nil => simp [setEntry]
  | cons entry rest ih =>
    rw [setEntry]
    split
    · simp
    · rename_i hne
      rw [List.lookup_cons, beq_false_of_ne (Ne.symm hne), ih]

theorem lookup_setEntry_ne {x y : String} (h : x ≠ y) (v : Number) (vars : List (String × Number)) :
    (setEntry y v vars).lookup x = vars.lookup x := by
  induction vars with
  | nil => simp [setEntry, List.lookup_cons, beq_false_of_ne h]
  | cons entry rest ih =>
    rw [setEntry]
    split
    · rename_i he
      rw [List.lookup_cons, List.lookup_cons, he]
      simp [beq_false_of_ne h]
    · rw [List.lookup_cons, List.lookup_cons, ih]

end Memory

namespace Store

/-- What is stored under a name, once the memory has been set up. -/
def get? (x : String) : Store → Option Number
  | ready memory => memory.get? x
  | _ => none

variable {s t : Store} (x : String)

theorem get?_setOffset {p : Point} (h : s.setOffset p = .ok t) : t.get? x = s.get? x := by
  cases s with
  | absent => cases h
  | loose | ready => obtain rfl := Except.ok.inj h; rfl

theorem get?_setSafe {on : Bool} (h : s.setSafe on = .ok t) : t.get? x = s.get? x := by
  cases s with
  | absent => cases h
  | loose | ready => obtain rfl := Except.ok.inj h; rfl

end Store

namespace Machine

def var? (m : Machine) (x : String) : Option Number := m.store.get? x

def stored? (m : Machine) : Instruction → Option Number
  | .setVar _ value => (m.value value).toOption
  | .varMath _ left right code => (m.compute left right code).toOption
  | _ => none

variable {m n : Machine} {memory : Memory} {x : String} {v : Number} {index : Option Nat} {inst : Instruction}

theorem var?_ready (hs : m.store = .ready memory) : m.var? x = memory.get? x := by
  rw [var?, hs, Store.get?]

theorem var?_congr {memory' : Memory} (hs : m.store = .ready memory) (hn : n.store = .ready memory')
    (hv : memory'.vars = memory.vars) : n.var? x = m.var? x := by
  rw [var?_ready hs, var?_ready hn, Memory.get?, Memory.get?, hv]

theorem var?_keeps (hk : m.Keeps n) : n.var? x = m.var? x := by
  rw [var?, var?, hk.store]

theorem ready_of_var? (h : m.var? x = some v) : ∃ memory, m.store = .ready memory ∧ memory.get? x = some v := by
  cases hs : m.store with
  | ready memory => exact ⟨memory, rfl, by rwa [var?, hs] at h⟩
  | absent | loose => simp [var?, hs, Store.get?] at h

/-- An operation keeps what is stored under a name. -/
private def KeepsVar (x : String) (m : Machine) (result : Machine × Option Fault) : Prop :=
  result.1.var? x = m.var? x

private theorem keepsVar_attempt {α : Type} {result : Except Fault α} {next : α → Machine × Option Fault}
    (h : ∀ a, KeepsVar x m (next a)) : KeepsVar x m (m.attempt result next) := by
  cases result with
  | ok a => exact h a
  | error fault => exact rfl

private theorem keepsVar_attemptMemory {α : Type} {result : Except MemoryFault α}
    {next : α → Machine × Option Fault} (h : ∀ a, result = .ok a → KeepsVar x m (next a)) :
    KeepsVar x m (m.attemptMemory result next) := by
  cases result with
  | ok a => exact h a rfl
  | error fault => exact rfl

/-- A change of the store that spares the variables keeps what is stored under a name. -/
private theorem keepsVar_changeStore {change : Except MemoryFault Store} {next : Store → Machine × Option Fault}
    (hnext : ∀ s, (next s).1.store = s) (h : ∀ s, change = .ok s → s.get? x = m.store.get? x) :
    KeepsVar x m (m.attemptMemory change next) := by
  apply keepsVar_attemptMemory
  intro s hs
  rw [KeepsVar, var?, hnext]
  exact h s hs

private theorem store_of_memory {entry : Entry} (h : m.store.memory entry = .ok memory) :
    m.store = .ready memory := by
  cases hs : m.store with
  | ready other =>
    rw [hs] at h
    rw [Except.ok.inj h]
  | absent | loose => simp [hs, Store.memory] at h

private theorem keepsVar_remember {next : Machine → Machine × Option Fault} (h : ∀ n, KeepsVar x n (next n)) :
    KeepsVar x m (m.remember next) := by
  apply keepsVar_attemptMemory
  intro memory hm
  exact (h _).trans (var?_congr (store_of_memory hm) rfl rfl)

private theorem keepsVar_jump (count : Operand) (target : Int) : KeepsVar x m (m.jump index count target) := by
  rcases m.jump_cases index count target with ⟨fault, he⟩ | ⟨visits, he⟩ | ⟨visits, he⟩ <;> rw [he] <;> rfl

private theorem keepsVar_store {y : String} (h : x ≠ y) (v : Number) : KeepsVar x m
    (m.attemptMemory (m.store.memory .vars) fun memory => (m.withMemory (memory.set y v), none)) := by
  apply keepsVar_attemptMemory
  intro memory hm
  rw [KeepsVar, var?_ready (store_of_memory hm)]
  exact Memory.lookup_setEntry_ne h v memory.vars

/-- What is stored under a name changes only by setting up and by an assignment to it. -/
theorem carryOut_var? (hsetup : inst ≠ .setup) (hx : inst.assigned? ≠ some x) :
    (m.carryOut index inst).1.var? x = m.var? x := by
  change KeepsVar x m (m.carryOut index inst)
  cases inst with
  | setup => exact absurd rfl hsetup
  | center => exact keepsVar_remember fun n => Eq.refl (n.var? x)
  | move a b time =>
    apply keepsVar_remember
    intro n
    refine keepsVar_attempt fun va => keepsVar_attempt fun vb => keepsVar_attempt fun place => ?_
    exact keepsVar_attemptMemory fun offset _ => Eq.refl (n.var? x)
  | moveRel a b time =>
    apply keepsVar_remember
    intro n
    exact keepsVar_attempt fun va => keepsVar_attempt fun vb => Eq.refl (n.var? x)
  | goBack =>
    apply keepsVar_attemptMemory
    intro memory hm
    have hs := store_of_memory hm
    cases hh : memory.history with
    | nil => simp only [Memory.popPlace?, hh]; rfl
    | cons place earlier =>
      simp only [Memory.popPlace?, hh]
      exact var?_congr hs rfl rfl
  | setOffset | clearOffset => exact keepsVar_changeStore (fun _ => rfl) fun _ => Store.get?_setOffset x
  | leftClick | rightClick | doubleClick =>
    apply keepsVar_attemptMemory
    intro safe _
    cases safe <;> rfl
  | wait time => exact keepsVar_attempt fun t => rfl
  | pause => exact var?_keeps m.keeps_pause
  | print message => rfl
  | safeMode on => exact keepsVar_changeStore (fun _ => rfl) fun _ => Store.get?_setSafe x
  | popup text title refused => cases refused <;> rfl
  | jump count target label => exact keepsVar_jump count target
  | call count target label =>
    apply keepsVar_attemptMemory
    intro memory hm
    have hs := store_of_memory hm
    have hpush : (m.withMemory (memory.pushCall m.pc).1).var? x = m.var? x :=
      var?_congr hs rfl rfl
    dsimp only
    split
    · exact hpush
    · exact (keepsVar_jump count target).trans hpush
  | ret =>
    apply keepsVar_attemptMemory
    intro memory hm
    have hs := store_of_memory hm
    cases hc : memory.calls with
    | nil => simp only [Memory.popCall?, hc]; rfl
    | cons last earlier =>
      simp only [Memory.popCall?, hc]
      split <;> exact var?_congr hs rfl rfl
  | finish | halt => rfl
  | printVar y =>
    apply keepsVar_attemptMemory
    intro offset _
    split
    · exact keepsVar_attempt fun text => rfl
    · exact keepsVar_attemptMemory fun memory _ => keepsVar_attempt fun value => keepsVar_attempt fun text => rfl
  | setVar y value =>
    have hne : x ≠ y := fun he => hx (congrArg some he.symm)
    change KeepsVar x m (m.setVar y (m.value value))
    unfold setVar
    split
    · rfl
    · exact keepsVar_attempt fun v => keepsVar_store hne v
  | varMath y left right code =>
    have hne : x ≠ y := fun he => hx (congrArg some he.symm)
    exact keepsVar_attempt fun v => keepsVar_store hne v

/-- An assignment that goes well stores its value. -/
theorem carryOut_assigns (hs : m.store = .ready memory) (hx : inst.assigned? = some x)
    (hc : m.carryOut index inst = (n, none)) : ∃ v, m.stored? inst = some v ∧ n.var? x = some v := by
  cases inst with
  | setVar y value =>
    obtain rfl : y = x := Option.some.inj hx
    have hne : m.store ≠ .absent := by simp [hs]
    simp only [carryOut, setVar, if_neg hne] at hc
    cases hv : m.value value with
    | error fault => simp [hv, attempt] at hc
    | ok v =>
      refine ⟨v, by simp only [stored?, hv, Except.toOption], ?_⟩
      simp only [hv, attempt, hs, Store.memory, attemptMemory, Prod.mk.injEq, and_true] at hc
      subst hc
      exact Memory.lookup_setEntry_self y v memory.vars
  | varMath y left right code =>
    obtain rfl : y = x := Option.some.inj hx
    simp only [carryOut, varMath] at hc
    cases hv : m.compute left right code with
    | error fault => simp [hv, attempt] at hc
    | ok v =>
      refine ⟨v, by simp only [stored?, hv, Except.toOption], ?_⟩
      simp only [hv, attempt, hs, Store.memory, attemptMemory, Prod.mk.injEq, and_true] at hc
      subst hc
      exact Memory.lookup_setEntry_self y v memory.vars
  | _ => simp [Instruction.assigned?] at hx

theorem value_keeps (hk : m.Keeps n) (o : Operand) : n.value o = m.value o := by
  cases o with
  | literal v => rfl
  | named name => simp only [value, scope, hk.store, hk.past, hk.pos]

theorem stored?_keeps (hk : m.Keeps n) (inst : Instruction) : n.stored? inst = m.stored? inst := by
  cases inst with
  | setVar y value => simp only [stored?, value_keeps hk]
  | varMath y left right code => cases code <;> simp only [stored?, compute, value_keeps hk]
  | _ => rfl

end Machine

namespace IsName

variable {x : String}

theorem isVariableName (h : IsName x) : isVariableName x = true := by
  obtain ⟨c, cs, hx, hc, hcs⟩ := h
  simp [PointerScript.isVariableName, hx, hc, List.dropWhile_eq_nil_iff.mpr hcs]

theorem ambient?_eq_none (h : IsName x) (pos offset : Point) : ambient? pos offset x = none := by
  obtain ⟨c, cs, hx, hc, _⟩ := h
  have hne (y : String) (hy : y.toList.head? = some '$') : x ≠ y := by
    rintro rfl
    rw [hx] at hy
    obtain rfl : c = '$' := Option.some.inj hy
    exact absurd hc (by decide)
  unfold ambient?
  split
  · exact absurd rfl (hne _ rfl)
  · exact absurd rfl (hne _ rfl)
  · exact absurd rfl (hne _ rfl)
  · exact absurd rfl (hne _ rfl)
  · rfl

private theorem toNat_of_isNameStart {c : Char} (h : Text.isNameStart c = true) :
    (65 ≤ c.toNat ∧ c.toNat ≤ 90) ∨ (97 ≤ c.toNat ∧ c.toNat ≤ 122) ∨ c.toNat = 95 := by
  change ((c.isUpper || c.isLower) || c == '_') = true at h
  rw [Bool.or_eq_true, Bool.or_eq_true, beq_iff_eq] at h
  rcases h with (hupper | hlower) | rfl
  · obtain ⟨hmin, hmax⟩ := of_decide_eq_true hupper
    exact .inl ⟨UInt32.le_iff_toNat_le.mp hmin, UInt32.le_iff_toNat_le.mp hmax⟩
  · obtain ⟨hmin, hmax⟩ := Bool.and_eq_true_iff.mp hlower
    exact .inr (.inl ⟨UInt32.le_iff_toNat_le.mp (of_decide_eq_true hmin),
      UInt32.le_iff_toNat_le.mp (of_decide_eq_true hmax)⟩)
  · exact .inr (.inr rfl)

private theorem isBlank_of_isNameChar {c : Char} (h : Text.isNameChar c = true) : Text.isBlank c = false := by
  simp only [Text.isNameChar, Char.isAlphanum, Bool.or_eq_true] at h
  rcases h with (halpha | hdigit) | hunder
  · have hstart : Text.isNameStart c = true := by simp [Text.isNameStart, halpha]
    have := toNat_of_isNameStart hstart
    refine Bool.eq_false_iff.mpr fun hb => ?_
    simp only [Text.isBlank, Bool.or_eq_true, Bool.and_eq_true, decide_eq_true_eq, beq_iff_eq] at hb
    omega
  · exact Text.isBlank_of_isDigit hdigit
  · rw [eq_of_beq hunder]
    rfl

theorem unblank (h : IsName x) : ∀ c ∈ x.toList, Text.isBlank c = false := by
  obtain ⟨c, cs, hx, hc, hcs⟩ := h
  rw [hx, List.forall_mem_cons]
  refine ⟨isBlank_of_isNameChar ?_, fun d hd => isBlank_of_isNameChar (hcs d hd)⟩
  simp only [Text.isNameStart, Text.isNameChar, Char.isAlphanum, Bool.or_eq_true] at hc ⊢
  exact hc.imp_left .inl

/-- A name is read as itself, unless it is the name of a number. -/
theorem read_eq (h : IsName x) : Operand.read x =
    match Number.readNamed? false x.toList with
    | some word => .literal (.float word)
    | none => .named x := by
  have hblank := h.unblank
  rw [Operand.read_unblank hblank]
  obtain ⟨c, cs, hx, hc, _⟩ := h
  have hrange := toNat_of_isNameStart hc
  have hne {d : Char} (hd : d.toNat < 65) : c ≠ d := by
    rintro rfl
    omega
  have hdigit : Text.digitValue? c = none := by
    rw [Text.digitValue?, if_pos (by omega), if_neg]
    intro hd
    have := Text.toNat_of_isDigit hd
    omega
  rw [hx] at hblank ⊢
  rewrite [Number.readBinary64?_letter (hne (by decide)) (hne (by decide)) (hne (by decide)) hdigit hblank]
  rfl

end IsName

def Operand.withValue (x : String) (v : Number) : Operand → Operand
  | named name => if name = x then literal v else named name
  | literal value => literal value

def Argument.withValue (x : String) (v : Number) : Argument → Argument
  | operand o => operand (o.withValue x v)
  | bare value => bare value

/-- The instruction with the value of a name in its place wherever the name is read. -/
def Instruction.withValue (x : String) (v : Number) : Instruction → Instruction
  | move a b time => move (a.withValue x v) (b.withValue x v) time
  | moveRel a b time => moveRel (a.withValue x v) (b.withValue x v) time
  | wait time => wait (time.withValue x v)
  | jump count target label => jump (count.withValue x v) target label
  | call count target label => call (count.withValue x v) target label
  | setVar name value => setVar name (value.withValue x v)
  | varMath name left right code => varMath name (left.withValue x v) (right.withValue x v) code
  | inst => inst

namespace Machine

variable {m n : Machine} {memory : Memory} {x : String} {v : Number}

theorem value_named (hx : IsName x) (h : m.var? x = some v) : m.value (.named x) = .ok v := by
  obtain ⟨memory, hs, hget⟩ := ready_of_var? h
  simp only [value, scope, hs, Memory.lookup, hx.ambient?_eq_none, hget]

theorem value_withValue (hx : IsName x) (h : m.var? x = some v) (o : Operand) :
    m.value (o.withValue x v) = m.value o := by
  cases o with
  | literal value => rfl
  | named name =>
    rw [Operand.withValue]
    split
    · rename_i he
      rw [he, value_named hx h]
      rfl
    · rfl

theorem argument_withValue (hx : IsName x) (h : m.var? x = some v) (a : Argument) :
    m.argument (a.withValue x v) = m.argument a := by
  cases a with
  | operand o => exact value_withValue hx h o
  | bare value => rfl

private theorem remember_congr {first second : Machine → Machine × Option Fault}
    (h : ∀ n, n.var? x = m.var? x → first n = second n) : m.remember first = m.remember second := by
  unfold remember
  cases hm : m.store.memory .history with
  | error fault => rfl
  | ok memory => exact h _ (var?_congr (store_of_memory hm) rfl rfl)

/-- Instructions do the same with a name as with its value. -/
theorem carryOut_withValue (hx : IsName x) (h : m.var? x = some v) (index : Option Nat) (inst : Instruction) :
    m.carryOut index (inst.withValue x v) = m.carryOut index inst := by
  have hjump {n : Machine} (hn : n.var? x = some v) (count : Operand) (target : Int) :
      n.jump index (count.withValue x v) target = n.jump index count target := by
    rw [jump, jump, value_withValue hx hn]
  cases inst with
  | move a b time =>
    simp only [Instruction.withValue, carryOut, move]
    apply remember_congr
    intro n hn
    rw [value_withValue hx (hn.trans h), argument_withValue hx (hn.trans h)]
  | moveRel a b time =>
    simp only [Instruction.withValue, carryOut, moveRel]
    apply remember_congr
    intro n hn
    rw [value_withValue hx (hn.trans h), argument_withValue hx (hn.trans h)]
  | wait time => simp only [Instruction.withValue, carryOut, value_withValue hx h]
  | jump count target label => exact hjump h count target
  | call count target label =>
    obtain ⟨memory, hs, _⟩ := ready_of_var? h
    have hn : (m.withCalls memory (m.pc :: memory.calls)).var? x = some v := by
      rw [← h]
      exact var?_congr hs rfl rfl
    simp only [Instruction.withValue, carryOut, call_eq hs, hjump hn]
  | setVar name value => simp only [Instruction.withValue, carryOut, value_withValue hx h]
  | varMath name left right code =>
    have hcompute : m.compute (left.withValue x v) (right.withValue x v) code = m.compute left right code := by
      cases code <;> simp only [compute, value_withValue hx h]
    simp only [Instruction.withValue, carryOut, varMath, hcompute]
  | _ => rfl

theorem carryOut_printVar (hx : IsName x) (h : m.var? x = some v) (index : Option Nat) :
    m.carryOut index (.printVar x) =
      m.attempt (v.shown.mapError .arithmetic) fun text => (m.say .info (x ++ " = " ++ text), none) := by
  obtain ⟨memory, hs, hget⟩ := ready_of_var? h
  simp only [carryOut, printVar, attemptMemory, hs, Store.offset, Store.memory, hx.ambient?_eq_none, Memory.lookup,
    hget]
  rfl

end Machine

namespace Text

/-- The first word of a text has no space in it. -/
theorem no_space_of_breakAt? {cs piece rest : List Char} (h : breakAt? [' '] cs = some (piece, rest)) :
    cs = piece ++ ' ' :: rest ∧ ' ' ∉ piece := by
  induction cs generalizing piece with
  | nil => simp [breakAt?] at h
  | cons c cs ih =>
    rw [breakAt?] at h
    split at h
    · rename_i hp
      obtain rfl : ' ' = c := by simpa using hp
      obtain ⟨rfl, rfl⟩ := Prod.mk.inj (Option.some.inj h)
      simp
    · rename_i hp
      obtain ⟨parts, hparts, hpair⟩ := Option.map_eq_some_iff.mp h
      obtain ⟨rfl, rfl⟩ := Prod.mk.inj hpair
      obtain ⟨rfl, hfree⟩ := ih hparts
      have hne : ' ' ≠ c := fun he => hp (by simpa using he)
      simp [hne, hfree]

theorem no_space_of_breakAt?_none {cs : List Char} (h : breakAt? [' '] cs = none) : ' ' ∉ cs := by
  induction cs with
  | nil => simp
  | cons c cs ih =>
    rw [breakAt?] at h
    split at h
    · exact absurd h (by simp)
    · rename_i hp
      have hne : ' ' ≠ c := fun he => hp (by simpa using he)
      simp [hne, ih (Option.map_eq_none_iff.mp h)]

end Text

namespace SourceLine

theorem mem_of_mem_word {line : List Char} {c : Char} (h : c ∈ (word line).toList) : c ∈ line ∧ c ≠ ' ' := by
  unfold word wordAndArgs at h
  split at h
  · rename_i piece args hb
    obtain ⟨rfl, hfree⟩ := Text.no_space_of_breakAt? hb
    rw [String.toList_ofList] at h
    exact ⟨List.mem_append_left _ h, fun he => hfree (he ▸ h)⟩
  · rename_i hb
    rw [String.toList_ofList] at h
    exact ⟨h, fun he => Text.no_space_of_breakAt?_none hb (he ▸ h)⟩

theorem mem_of_mem_rest {line : List Char} {c : Char} (h : c ∈ (rest line).toList) : c ∈ line := by
  unfold rest wordAndArgs at h
  split at h
  · rename_i piece args hb
    obtain ⟨rfl, _⟩ := Text.no_space_of_breakAt? hb
    rw [String.toList_ofList] at h
    simp [h]
  · simp at h

private theorem space_of_blank {source : String} {line : List Char} (hl : line ∈ sourceLines source) {c : Char}
    (h : c ∈ line) (hc : Text.isBlank c = true) : c = ' ' := by
  obtain ⟨raw, _, rfl⟩ := List.mem_map.mp (List.mem_filter.mp hl).1
  exact Text.space_of_mem_collapseFrom (Text.mem_of_mem_trim h) hc

/-- The word behind `var` in a line of a source text has no blanks. -/
theorem unblank_target {source : String} {line : List Char} (hl : line ∈ sourceLines source) :
    ∀ c ∈ (word (rest line).toList).toList, Text.isBlank c = false := by
  intro c hc
  obtain ⟨hmem, hne⟩ := mem_of_mem_word hc
  exact Bool.eq_false_iff.mpr fun hb => hne (space_of_blank hl (mem_of_mem_rest hmem) hb)

/-- A text without blanks that passes for a variable is a name. -/
theorem isName_of_unblank {x : String} (h : isVariableName x = true)
    (hb : ∀ c ∈ x.toList, Text.isBlank c = false) : IsName x := by
  unfold isVariableName at h
  split at h
  · exact absurd h (by simp)
  · rename_i c cs hx
    dsimp only at h
    rw [Bool.and_eq_true] at h
    refine ⟨c, cs, hx, h.1, ?_⟩
    -- What is left behind the name is nothing, since a line feed would be a blank.
    have hrest : cs.dropWhile Text.isNameChar = [] := by
      rcases (Bool.or_eq_true _ _).mp h.2 with he | he
      · exact eq_of_beq he
      · have hmem : '\n' ∈ cs.dropWhile Text.isNameChar := by simp [eq_of_beq he]
        have hin : '\n' ∈ x.toList := by
          rw [hx]
          exact List.mem_cons_of_mem _ ((List.dropWhile_sublist _).subset hmem)
        exact absurd (hb _ hin) (by decide)
    exact List.dropWhile_eq_nil_iff.mp hrest

end SourceLine

/-- What a compiled program assigns to are names. -/
theorem isName_of_compile {safe : Bool} {source : String} {program : Array Instruction} {inst : Instruction}
    {x : String} (h : (compile safe source).1 = .program program) (hi : inst ∈ program)
    (hx : inst.assigned? = some x) : IsName x := by
  have htarget (target : Int) (other : Instruction) : (other.withTarget target).assigned? = other.assigned? := by
    cases other <;> rfl
  rcases mem_of_compile h hi with hinit | ⟨line, hline, built, hbuilt, hsame⟩
  · have hnone : ∀ i ∈ Standard.initial safe, i.assigned? = none := by
      cases safe <;> simp [Standard.initial, Instruction.assigned?]
    exact absurd (hx.symm.trans (hnone inst hinit)) (by simp)
  · have hassigned : built.assigned? = some x := by
      rcases hsame with rfl | ⟨target, rfl⟩
      · exact hx
      · rw [← hx, htarget]
    have hw : word line = "var" := by
      by_cases hl : word line = "label"
      · exact absurd (alone_label hl hbuilt) (by simp)
      by_cases hc : word line = "call"
      · obtain rfl := Built.instruction.inj (alone_call hc hbuilt)
        simp [Instruction.assigned?] at hassigned
      by_cases hj : word line = "jump"
      · obtain ⟨label, _, hitem⟩ := alone_jump hj hbuilt
        obtain rfl := Built.instruction.inj hitem
        simp [Instruction.assigned?] at hassigned
      obtain ⟨other, hitem, _, _, hvar⟩ := alone_other hl hc hj hbuilt
      obtain rfl := Built.instruction.inj hitem
      exact hvar (by simp [hassigned])
    obtain ⟨other, hitem, htext, hname⟩ := alone_var hw hbuilt
    obtain rfl := Built.instruction.inj hitem
    obtain rfl := Option.some.inj (htext.symm.trans hassigned)
    exact isName_of_unblank hname (unblank_target hline)

namespace Run

variable {safe : Bool} {program : Array Instruction} {r r' : Run} {index : Nat} {inst : Instruction} {x : String}

/-- A turn behind the first one that does not assign to a name keeps what is stored under it. -/
theorem Turn.var? (hl : Laid safe program) (t : r.Turn index inst r') (h : Contained safe program r.machine)
    (hpc : r.machine.pc ≠ 0) (hx : inst.assigned? ≠ some x) : r'.machine.var? x = r.machine.var? x := by
  obtain ⟨hindex, hi, _⟩ := t.contained hl h
  obtain ⟨_, _, m, n, hk, hc, he⟩ := t.carries
  have hsetup : inst ≠ .setup := by
    rintro rfl
    rcases hl.behind (by omega) hi with hp | hp | ⟨_, hfit⟩
    · simp [Instruction.isPlain] at hp
    · simp at hp
    · exact hfit
  have hframe : (m.carryOut (some index) inst).1.var? x = m.var? x := Machine.carryOut_var? hsetup hx
  rw [hc] at hframe
  calc r'.machine.var? x = n.var? x := by rw [he]; rfl
    _ = m.var? x := hframe
    _ = r.machine.var? x := Machine.var?_keeps hk

theorem Leads.var? {executed : List (Nat × Instruction)} (hl : Laid safe program) (hr : r.Leads executed r')
    (h : Contained safe program r.machine) (hpc : r.machine.pc ≠ 0) (hx : ∀ e ∈ executed, e.2.assigned? ≠ some x) :
    r'.machine.var? x = r.machine.var? x ∧ r'.machine.pc ≠ 0 := by
  induction hr with
  | start => exact ⟨rfl, hpc⟩
  | turn hr t ih =>
    rw [List.forall_mem_append, List.forall_mem_singleton] at hx
    obtain ⟨hsame, hne⟩ := ih hx.1
    have hc := hr.contained hl h
    refine ⟨?_, (t.contained hl hc).2.2.2.1⟩
    rw [t.var? hl hc hne hx.2, hsame]

/-- A turn that assigns to a name stores the value of the assignment. -/
theorem Turn.assigns (hl : Laid safe program) (t : r.Turn index inst r') (h : Contained safe program r.machine)
    (hx : inst.assigned? = some x) : ∃ v, r.machine.stored? inst = some v ∧ r'.machine.var? x = some v := by
  obtain ⟨hindex, hi, _⟩ := t.contained hl h
  have h0 : index ≠ 0 := by
    rintro rfl
    obtain rfl := Option.some.inj (hl.setup.symm.trans hi)
    simp [Instruction.assigned?] at hx
  obtain ⟨_, _, m, n, hk, hc, he⟩ := t.carries
  obtain ⟨memory, hs⟩ := h.ready (by omega)
  obtain ⟨v, hstored, hv⟩ := Machine.carryOut_assigns (hk.store.trans hs) hx hc
  refine ⟨v, by rw [← hstored, Machine.stored?_keeps hk], ?_⟩
  rw [← hv, he]
  rfl

end Run

/-- A variable reads back what was written. When a compiled script has carried out an assignment to a name
and no other one to it since, whatever the user does and whichever instructions came between, then the name
stands for the value that was stored: instructions do the same with it as with the value itself, and
printing it shows the value. Written as an operand it has this value too, unless it is the name of a
number; that number is read instead. -/
theorem variable_reads_back {safe : Bool} {source : String} {program : Array Instruction}
    (h : (compile safe source).1 = .program program) (m : Machine) (actions : List Action)
    {executed later : List (Nat × Instruction)} {r r1 r2 : Run} {index : Nat} {inst : Instruction} {x : String}
    (hr : ((m.load program).opening actions).Leads executed r) (t : r.Turn index inst r1)
    (hx : inst.assigned? = some x) (hlater : r1.Leads later r2) (hnot : ∀ e ∈ later, e.2.assigned? ≠ some x) :
    isVariableName x = true ∧
    ∃ v, r.machine.stored? inst = some v ∧ ∀ n, r2.machine.Keeps n →
      n.value (.named x) = .ok v ∧
      (∀ place use, n.carryOut place (use.withValue x v) = n.carryOut place use) ∧
      (∀ place, n.carryOut place (.printVar x) =
        n.attempt (v.shown.mapError .arithmetic) fun text => (n.say .info (x ++ " = " ++ text), none)) ∧
      n.value (Operand.read x) =
        .ok (match Number.readNamed? false x.toList with
          | some word => .float word
          | none => v) := by
  have hl := laid_of_compile h
  have hc := hr.contained hl (contained_opening safe program m actions)
  obtain ⟨_, hi, hc1, hpc1, _⟩ := t.contained hl hc
  have hname := isName_of_compile h (Array.mem_of_getElem? hi) hx
  obtain ⟨v, hstored, hv⟩ := t.assigns hl hc hx
  have hv2 : r2.machine.var? x = some v := (hlater.var? hl hc1 hpc1 hnot).1.trans hv
  refine ⟨hname.isVariableName, v, hstored, fun n hk => ?_⟩
  have hn : n.var? x = some v := (Machine.var?_keeps hk).trans hv2
  have hvalue := Machine.value_named hname hn
  refine ⟨hvalue, Machine.carryOut_withValue hname hn, Machine.carryOut_printVar hname hn, ?_⟩
  rw [hname.read_eq]
  cases Number.readNamed? false x.toList with
  | some word => rfl
  | none => exact hvalue

/-- A variable is read through a jump back and an assignment to another one. -/
theorem variable_reads_back_in_loop :
    let five : Number := .float (Binary64.ofInt 5)
    let body : List Instruction := [.setVar "a" (.literal five), .varMath "b" (.named "a") (.named "a") (.known .sum),
      .jump (.literal (.float (Binary64.ofInt 2))) 3 (.named "l"), .wait (.named "a")]
    let program := (Standard.initial false ++ body).toArray
    let r0 := (({} : Machine).load program).opening []
    let r := r0.turn.1.turn.1
    let r2 := r.turn.1.turn.1.turn.1
    (compile false "var a = 5\nlabel l\nvar b = a + a\njump l 2\nwait a").1 = .program program ∧
    r0.Leads [(0, .setup), (1, .wait (.literal Standard.delay))] r ∧
    r.Turn 2 (.setVar "a" (.literal five)) r.turn.1 ∧
    r.turn.1.Leads [(3, .varMath "b" (.named "a") (.named "a") (.known .sum)),
      (4, .jump (.literal (.float (Binary64.ofInt 2))) 3 (.named "l"))] r2 ∧
    r2.machine.value (Operand.read "a") = .ok five := by
  intro five body program r0 r r2
  have hc : (compile false "var a = 5\nlabel l\nvar b = a + a\njump l 2\nwait a").1 = .program program := by
    decide +kernel
  have t0 : r0.Turn 0 .setup r0.turn.1 := Run.turn_of_fetch (by decide +kernel) (by decide +kernel)
  have t1 : r0.turn.1.Turn 1 (.wait (.literal Standard.delay)) r :=
    Run.turn_of_fetch (by decide +kernel) (by decide +kernel)
  have t2 : r.Turn 2 (.setVar "a" (.literal five)) r.turn.1 :=
    Run.turn_of_fetch (by decide +kernel) (by decide +kernel)
  have t3 : r.turn.1.Turn 3 (.varMath "b" (.named "a") (.named "a") (.known .sum)) r.turn.1.turn.1 :=
    Run.turn_of_fetch (by decide +kernel) (by decide +kernel)
  have t4 : r.turn.1.turn.1.Turn 4 (.jump (.literal (.float (Binary64.ofInt 2))) 3 (.named "l")) r2 :=
    Run.turn_of_fetch (by decide +kernel) (by decide +kernel)
  have hr : r0.Leads [(0, .setup), (1, .wait (.literal Standard.delay))] r := .turn (.turn .start t0) t1
  have hlater := Run.Leads.turn (Run.Leads.turn .start t3) t4
  obtain ⟨_, v, hv, hread⟩ := variable_reads_back hc {} [] hr t2 rfl hlater (by decide)
  obtain rfl : five = v := Option.some.inj hv
  exact ⟨hc, hr, t2, hlater, (hread _ .rfl).2.2.2⟩

/-- A name that is the name of a number is assigned and printed like any other, but reading it as an operand
gives that number and not what was assigned. -/
theorem infinity_is_not_read_back :
    let five : Number := .float (Binary64.ofInt 5)
    let body : List Instruction := [.setVar "inf" (.literal five), .setVar "y" (.literal (.float (.infinite false)))]
    let program := (Standard.initial false ++ body).toArray
    let final := ((({} : Machine).load program).execute 10 []).1.machine
    isVariableName "inf" = true ∧
    (compile false "var inf = 5\nvar y = inf").1 = .program program ∧
    final.value (.named "inf") = .ok five ∧
    final.value (Operand.read "inf") = .ok (.float (.infinite false)) ∧
    final.value (.named "y") = .ok (.float (.infinite false)) := by
  intro five body program final
  have hc : (compile false "var inf = 5\nvar y = inf").1 = .program program := by decide +kernel
  have hstored : final.value (.named "inf") = .ok five := by decide +kernel
  have hread : final.value (Operand.read "inf") = .ok (.float (.infinite false)) := by decide +kernel
  have hcopied : final.value (.named "y") = .ok (.float (.infinite false)) := by decide +kernel
  exact ⟨by decide, hc, hstored, hread, hcopied⟩

end PointerScript
