import PointerScript.Proofs.CommandForms
import PointerScript.Proofs.Linking

/-! Values that can be had. Whatever stands where a value belongs compiles, and what is no value is found out when it
is needed: an argument has a value exactly if it is a number, a value of the pointer or the offset, or a variable
that has been assigned. So no instruction is ever carried out with an argument that is none of these. -/

namespace PointerScript

open SourceLine

/-- The names of the values that belong to the pointer and the offset. -/
def ambientNames : List String := ["$MOUSE_X", "$MOUSE_Y", "$OFFSET_X", "$OFFSET_Y"]

/-- Whether an argument is a number, a variable or a value of the pointer and the offset. -/
def Argument.IsProper : Argument → Prop
  | operand (.literal _) => True
  | operand (.named x) => IsName x ∨ x ∈ ambientNames
  | bare _ => False

/-- The values that an instruction is given. -/
def Instruction.arguments : Instruction → List Argument
  | move x y _ | moveRel x y _ => [.operand x, y]
  | wait time => [.operand time]
  | jump count _ _ | call count _ _ => [.operand count]
  | setVar _ value => [.operand value]
  | varMath _ left right _ => [.operand left, .operand right]
  | _ => []

theorem Instruction.arguments_withTarget (inst : Instruction) (target : Int) :
    (inst.withTarget target).arguments = inst.arguments := by
  cases inst <;> rfl

theorem SourceLine.bare_arguments {word : String} {inst : Instruction} (h : (word, inst) ∈ bare) :
    inst.arguments = [] := by
  have hall : ∀ entry ∈ bare, entry.2.arguments = [] := by decide
  exact hall _ h

theorem ambient?_isSome (pos offset : Point) {x : String} :
    (ambient? pos offset x).isSome = true ↔ x ∈ ambientNames := by
  unfold ambient? ambientNames
  split <;> simp_all

theorem ambient?_of_not_mem {x : String} (hx : x ∉ ambientNames) (pos offset : Point) :
    ambient? pos offset x = none := by
  rw [← Option.not_isSome_iff_eq_none, ambient?_isSome]
  exact hx

namespace Machine

variable {m n : Machine} {memory : Memory}

private theorem value_ambient (hs : m.store = .ready memory) {x : String} (hx : x ∈ ambientNames) :
    ∃ v, m.value (.named x) = .ok v := by
  obtain ⟨v, hv⟩ := Option.isSome_iff_exists.mp ((ambient?_isSome (m.device.pos) memory.offset).mpr hx)
  exact ⟨v, by simp only [value, scope, hs, Memory.lookup, hv]⟩

/-- The value of any other name is what is stored under it. -/
private theorem value_stored (hs : m.store = .ready memory) {x : String} (hx : x ∉ ambientNames) :
    (∃ v, m.value (.named x) = .ok v) ↔ m.var? x ≠ none := by
  simp only [value, scope, hs, Memory.lookup, ambient?_of_not_mem hx, var?_ready hs]
  cases memory.get? x <;> simp

/-- An argument has a value exactly if it is proper and, where it is a variable, something has been stored under
it, provided that nothing is ever stored under what is no name. -/
theorem argument_ok_iff (hs : m.store = .ready memory) (hnames : ∀ x, ¬ IsName x → m.var? x = none) (a : Argument) :
    (∃ v, m.argument a = .ok v) ↔
      a.IsProper ∧ ∀ x, a = .operand (.named x) → IsName x → m.var? x ≠ none := by
  cases a with
  | bare v => simp [argument, Argument.IsProper]
  | operand o =>
    cases o with
    | literal v => simp [argument, value, Argument.IsProper]
    | named x =>
      simp only [argument, Argument.IsProper, Argument.operand.injEq, Operand.named.injEq, forall_eq']
      by_cases hx : x ∈ ambientNames
      · have hname : ¬ IsName x := by
          intro hname
          have hsome := (ambient?_isSome .origin .origin).mpr hx
          rw [hname.ambient?_eq_none] at hsome
          cases hsome
        simp [value_ambient hs hx, hx, hname]
      · rw [value_stored hs hx]
        by_cases hname : IsName x
        · simp [hname]
        · simp [hname, hx, hnames x hname]

private theorem of_attempt {α : Type} {result : Except Fault α} {next : α → Machine × Option Fault}
    (h : m.attempt result next = (n, none)) : ∃ a, result = .ok a ∧ next a = (n, none) := by
  cases result with
  | error fault => cases h
  | ok a => exact ⟨a, rfl, h⟩

/-- Operands are looked up among the variables, from where the pointer and the offset are. -/
theorem value_withMemory (hs : m.store = .ready memory) {memory' : Memory} (hv : memory'.vars = memory.vars)
    (ho : memory'.offset = memory.offset) (o : Operand) : (m.withMemory memory').value o = m.value o := by
  cases o with
  | literal v => rfl
  | named x =>
    simp only [value, scope, withMemory, hs, Memory.lookup, Memory.get?, hv, ho]

theorem argument_withMemory (hs : m.store = .ready memory) {memory' : Memory} (hv : memory'.vars = memory.vars)
    (ho : memory'.offset = memory.offset) (a : Argument) : (m.withMemory memory').argument a = m.argument a := by
  cases a with
  | operand o => exact value_withMemory hs hv ho o
  | bare v => rfl

/-- A movement looks its coordinates up when it has remembered the place of the pointer. -/
private theorem coordinates_evaluate (hs : m.store = .ready memory) {x : Operand} {y : Argument}
    {next : Machine → Number → Number → Machine × Option Fault}
    (h : (m.remember fun k => k.attempt (k.value x) fun vx => k.attempt (k.argument y) fun vy => next k vx vy) =
      (n, none)) : ∀ a ∈ [.operand x, y], ∃ v, m.argument a = .ok v := by
  simp only [remember, attemptMemory, hs, Store.memory] at h
  obtain ⟨vx, hx, h⟩ := of_attempt h
  obtain ⟨vy, hy, _⟩ := of_attempt h
  have hvx : m.value x = .ok vx := (value_withMemory hs rfl rfl x).symm.trans hx
  have hvy : m.argument y = .ok vy := (argument_withMemory hs rfl rfl y).symm.trans hy
  simp only [List.forall_mem_cons]
  exact ⟨⟨vx, hvx⟩, ⟨vy, hvy⟩, by simp⟩

/-- An instruction that is carried out has values for all of its arguments. -/
theorem carryOut_evaluates (hs : m.store = .ready memory) {index : Option Nat} {inst : Instruction}
    (h : m.carryOut index inst = (n, none)) : ∀ a ∈ inst.arguments, ∃ v, m.argument a = .ok v := by
  cases inst with
  | move x y time =>
    simp only [carryOut, move] at h
    exact coordinates_evaluate hs h
  | moveRel x y time =>
    simp only [carryOut, moveRel] at h
    exact coordinates_evaluate hs h
  | wait time =>
    obtain ⟨v, hv, _⟩ := of_attempt h
    simpa [Instruction.arguments] using ⟨v, hv⟩
  | jump count target label =>
    obtain ⟨v, hv, _⟩ := of_attempt h
    simpa [Instruction.arguments] using ⟨v, hv⟩
  | call count target label =>
    simp only [carryOut, call_eq hs] at h
    split at h
    · cases h
    · obtain ⟨v, hv, _⟩ := of_attempt h
      have hsame : (m.withCalls memory (m.pc :: memory.calls)).value count = m.value count :=
        value_withMemory hs rfl rfl count
      simpa [Instruction.arguments] using ⟨v, hsame.symm.trans hv⟩
  | setVar name value =>
    simp only [carryOut, setVar, hs, reduceCtorEq, if_false] at h
    obtain ⟨v, hv, _⟩ := of_attempt h
    simpa [Instruction.arguments] using ⟨v, hv⟩
  | varMath name left right code =>
    obtain ⟨v, hv, _⟩ := of_attempt h
    cases code with
    | unknown code => cases hv
    | known op =>
      simp only [compute] at hv
      cases hl : m.value left with
      | error fault =>
        rw [hl] at hv
        cases hv
      | ok l =>
        cases hr : m.value right with
        | error fault =>
          rw [hl, hr] at hv
          cases hv
        | ok r => simp [Instruction.arguments, argument, hl, hr]
  | _ => simp [Instruction.arguments]

end Machine

namespace Run

variable {safe : Bool} {source : String} {program : Array Instruction} {r r' : Run} {m : Machine}
  {actions : List Action} {executed : List (Nat × Instruction)}

/-- Nothing is ever stored under what is no name. -/
theorem Leads.var?_of_not_isName (h : (compile safe source).1 = .program program)
    (hr : ((m.load program).opening actions).Leads executed r) {x : String} (hx : ¬ IsName x) :
    r.machine.var? x = none := by
  have hl := laid_of_compile h
  induction hr with
  | start => rfl
  | @turn executed index inst r r' hr t ih =>
    have hc := hr.contained hl (contained_opening safe program m actions)
    obtain ⟨hpc, hi, _⟩ := t.contained hl hc
    by_cases h0 : r.machine.pc = 0
    · -- The first turn sets up a memory without variables.
      obtain rfl : index = 0 := by omega
      obtain rfl := Option.some.inj (hl.setup.symm.trans hi)
      obtain ⟨_, _, k, n, hk, hset, he⟩ := t.carries
      have hs : k.store = .loose none none := hk.store.trans (hc.start h0)
      simp only [Machine.carryOut, hs, Prod.mk.injEq, and_true] at hset
      rw [he, ← hset]
      rfl
    · have hassigned : inst.assigned? ≠ some x := by
        intro ha
        exact hx (isName_of_compile h (Array.mem_of_getElem? hi) ha)
      rw [t.var? hl hc h0 hassigned, ih]

/-- In a compiled script an argument has a value exactly if it is a number, a value of the pointer or the offset, or
a variable that has been assigned. -/
theorem Leads.argument_ok_iff (h : (compile safe source).1 = .program program)
    (hr : ((m.load program).opening actions).Leads executed r) (hpc : r.machine.pc ≠ 0) {n : Machine}
    (hk : r.machine.Keeps n) (a : Argument) : (∃ v, n.argument a = .ok v) ↔
      a.IsProper ∧ ∀ x, a = .operand (.named x) → IsName x → n.var? x ≠ none := by
  obtain ⟨memory, hs⟩ := (hr.contained (laid_of_compile h) (contained_opening safe program m actions)).ready hpc
  apply Machine.argument_ok_iff (hk.store.trans hs)
  intro x hx
  rw [Machine.var?_keeps hk, hr.var?_of_not_isName h hx]

/-- No instruction is carried out with an argument that is not proper. -/
theorem Leads.arguments_proper (h : (compile safe source).1 = .program program)
    (hr : ((m.load program).opening actions).Leads executed r) :
    ∀ e ∈ executed, ∀ a ∈ e.2.arguments, a.IsProper := by
  have hl := laid_of_compile h
  induction hr with
  | start => simp
  | @turn executed index inst r r' hr t ih =>
    rw [List.forall_mem_append, List.forall_mem_singleton]
    refine ⟨ih, fun a ha => ?_⟩
    have hc := hr.contained hl (contained_opening safe program m actions)
    obtain ⟨hpc, hi, _⟩ := t.contained hl hc
    obtain ⟨_, _, k, n, hk, hcarry, _⟩ := t.carries
    by_cases h0 : r.machine.pc = 0
    · obtain rfl : index = 0 := by omega
      obtain rfl := Option.some.inj (hl.setup.symm.trans hi)
      simp [Instruction.arguments] at ha
    · obtain ⟨memory, hs⟩ := hc.ready h0
      have hvalue := Machine.carryOut_evaluates (hk.store.trans hs) hcarry a ha
      exact ((hr.argument_ok_iff h h0 hk a).mp hvalue).1

end Run

section

variable {word args : String} {inst : Instruction}

private theorem assignment_arguments (x : String) (left right : Operand) (sign : MathSign) :
    ∀ a ∈ (Standard.assignment x left right sign).arguments, ∃ o, a = .operand o := by
  cases sign <;> simp [Standard.assignment, Instruction.arguments]

theorem Documented.arguments (h : Documented word args inst) : ∀ a ∈ inst.arguments, ∃ o, a = .operand o := by
  cases h with
  | movement hm | timed hm => cases hm <;> simp [Instruction.arguments]
  | wait | jump | counted | assign => simp [Instruction.arguments]
  | operate => exact assignment_arguments _ _ _ _

theorem Slip.nameless_of_jump (h : Slip word args inst) (hw : word = "jump") : args = "" := by
  cases h with
  | half hm => cases hm <;> simp at hw
  | nameless => rfl
  | dangling | unsigned => simp at hw

/-- Only a movement with one coordinate has an argument that is no operand. -/
theorem Slip.arguments (h : Slip word args inst) : ∀ a ∈ inst.arguments, (∃ o, a = .operand o) ∨
    (a = .bare (.float (.zero false)) ∧ (word = "move" ∨ word = "moverel") ∧ ' ' ∉ args.toList) := by
  cases h with
  | half hm _ hx => cases hm <;> simp [Instruction.arguments, hx]
  | nameless | unsigned => simp [Instruction.arguments]
  | dangling => exact fun a ha => .inl (assignment_arguments _ _ _ _ a ha)

end

section

variable {safe : Bool} {source : String} {program : Array Instruction} (h : (compile safe source).1 = .program program)
include h

/-- A jump of a source text that compiles names a label. -/
theorem jump_named {line : List Char} (hl : line ∈ sourceLines source) (hw : word line = "jump") :
    rest line ≠ "" := by
  intro he
  obtain ⟨items, hi, _, hd, _⟩ := compile_eq_alone.mp h
  have hgoal : goal? line = some .unnamed := by simp [goal?, hw, he]
  obtain ⟨name, _, hname⟩ := (defines_alone hi _).mp hd line hl _ hgoal
  cases hname

/-- Each line with values of a source text that compiles has a documented form or is one of the slips. -/
theorem forms_of_compile {line : List Char} (hl : line ∈ sourceLines source) (hw : word line ∈ valued) :
    ∃ inst, alone line = .ok (.instruction inst) ∧ (Documented (word line) (rest line) inst ∨
      (Slip (word line) (rest line) inst ∧ word line ≠ "jump")) := by
  obtain ⟨items, hi, _⟩ := compile_eq_alone.mp h
  have hmem : alone line ∈ items.map .ok := hi ▸ List.mem_map_of_mem hl
  obtain ⟨item, _, hitem⟩ := List.mem_map.mp hmem
  obtain ⟨inst, rfl, hd | hs⟩ := (alone_valued hw).mp hitem.symm
  · exact ⟨inst, hitem.symm, .inl hd⟩
  · refine ⟨inst, hitem.symm, .inr ⟨hs, fun hjump => ?_⟩⟩
    exact jump_named h hl hjump (hs.nameless_of_jump hjump)

/-- All arguments of a compiled program are operands, but for the bare number that stands for the second coordinate
of a movement with one. -/
theorem arguments_of_compile {inst : Instruction} (hi : inst ∈ program) : ∀ a ∈ inst.arguments,
    (∃ o, a = .operand o) ∨ (a = .bare (.float (.zero false)) ∧ ∃ line ∈ sourceLines source,
      (word line = "move" ∨ word line = "moverel") ∧ ' ' ∉ (rest line).toList) := by
  rcases mem_of_compile h hi with hinit | ⟨line, hline, built, hbuilt, hsame⟩
  · have hall : ∀ i ∈ Standard.initial safe, ∀ a ∈ i.arguments, ∃ o, a = .operand o := by
      cases safe <;> simp [Standard.initial, Instruction.arguments]
    exact fun a ha => .inl (hall inst hinit a ha)
  · have harguments : inst.arguments = built.arguments := by
      rcases hsame with rfl | ⟨target, rfl⟩
      · rfl
      · exact built.arguments_withTarget target
    rw [harguments]
    intro a ha
    by_cases hw : word line ∈ valued
    · obtain ⟨other, he, hd | hs⟩ := (alone_valued hw).mp hbuilt <;> obtain rfl := Built.instruction.inj he
      · exact .inl (hd.arguments a ha)
      · rcases hs.arguments a ha with ho | ⟨hbare, hmove⟩
        · exact .inl ho
        · exact .inr ⟨hbare, line, hline, hmove⟩
    · left
      rcases alone_unvalued hw hbuilt with hmem | rfl | rfl | ⟨message, rfl⟩ | rfl | rfl
      · simp [bare_arguments hmem] at ha
      all_goals simp_all [Instruction.arguments]

end

/-- What compiles, and what can be had of it. Each movement, wait, jump and assignment of a source text that compiles
has its documented form or is one of the slips, and these lines are all that build. The arguments of the program are
operands, but for the bare number that stands for the second coordinate of a movement with one. Behind setting up an
argument has a value exactly if it is a number, a value of the pointer or the offset, or a variable that has been
assigned; so whatever the user does, no instruction is ever carried out with an argument that is none of these. -/
theorem compiled_values_are_proper_when_used {safe : Bool} {source : String} {program : Array Instruction}
    (h : (compile safe source).1 = .program program) :
    (∀ line ∈ sourceLines source, word line ∈ valued → ∃ inst, alone line = .ok (.instruction inst) ∧
      (Documented (word line) (rest line) inst ∨ (Slip (word line) (rest line) inst ∧ word line ≠ "jump"))) ∧
    (∀ line inst, word line ∈ valued → (Documented (word line) (rest line) inst ∨ Slip (word line) (rest line) inst) →
      alone line = .ok (.instruction inst)) ∧
    (∀ inst ∈ program, ∀ a ∈ inst.arguments, (∃ o, a = .operand o) ∨
      (a = .bare (.float (.zero false)) ∧ ∃ line ∈ sourceLines source,
        (word line = "move" ∨ word line = "moverel") ∧ ' ' ∉ (rest line).toList)) ∧
    ∀ (m : Machine) (actions : List Action) executed r, ((m.load program).opening actions).Leads executed r →
      (∀ e ∈ executed, ∀ a ∈ e.2.arguments, a.IsProper) ∧
      (r.machine.pc ≠ 0 → ∀ n, r.machine.Keeps n → ∀ a, (∃ v, n.argument a = .ok v) ↔
        a.IsProper ∧ ∀ x, a = .operand (.named x) → IsName x → n.var? x ≠ none) := by
  refine ⟨fun line hl hw => forms_of_compile h hl hw, ?_, fun inst hi => arguments_of_compile h hi, ?_⟩
  · intro line inst hw hforms
    exact (alone_valued hw).mpr ⟨inst, rfl, hforms⟩
  · intro m actions executed r hr
    exact ⟨hr.arguments_proper h, fun hpc n hk a => hr.argument_ok_iff h hpc hk a⟩

/-- An assignment without its second operand is carried out; the movement with one coordinate behind it is not. -/
theorem dangling_assignment_is_used :
    let source := "var a = 5 +\nmove a"
    let five : Number := .float (Binary64.ofInt 5)
    let sum : Instruction := .varMath "a" (.literal five) Operand.absent (.known .sum)
    let half : Instruction := .move (.named "a") (.bare (.float (.zero false))) (.float (.zero false))
    let program := (Standard.initial false ++ [sum, half]).toArray
    let r0 := (({} : Machine).load program).opening []
    let r := r0.turn.1.turn.1.turn.1
    (compile false source).1 = .program program ∧
    r0.Leads [(0, .setup), (1, .wait (.literal Standard.delay)), (2, sum)] r ∧ r.machine.pc ≠ 0 ∧
    (∀ a ∈ sum.arguments, a.IsProper) ∧ ¬ (∀ a ∈ half.arguments, ∃ v, r.machine.argument a = .ok v) ∧
    ∀ executed r', r0.Leads executed r' → ∀ e ∈ executed, e.2 ≠ half := by
  intro source five sum half program r0 r
  have hc : (compile false source).1 = .program program := by decide +kernel
  have t0 : r0.Turn 0 .setup r0.turn.1 := Run.turn_of_fetch (by decide +kernel) (by decide +kernel)
  have t1 : r0.turn.1.Turn 1 (.wait (.literal Standard.delay)) r0.turn.1.turn.1 :=
    Run.turn_of_fetch (by decide +kernel) (by decide +kernel)
  have t2 : r0.turn.1.turn.1.Turn 2 sum r := Run.turn_of_fetch (by decide +kernel) (by decide +kernel)
  have hr : r0.Leads [(0, .setup), (1, .wait (.literal Standard.delay)), (2, sum)] r :=
    .turn (.turn (.turn .start t0) t1) t2
  have hpc : r.machine.pc ≠ 0 := by decide +kernel
  have hbare : .bare (.float (.zero false)) ∈ half.arguments := by simp [half, Instruction.arguments]
  obtain ⟨_, _, _, hruns⟩ := compiled_values_are_proper_when_used hc
  obtain ⟨hproper, hvalues⟩ := hruns {} [] _ r hr
  refine ⟨hc, hr, hpc, hproper (2, sum) (by simp), ?_, ?_⟩
  · intro hall
    exact ((hvalues hpc r.machine .rfl _).mp (hall _ hbare)).1
  · intro executed r' hr' e he heq
    exact (hruns {} [] executed r' hr').1 e he _ (heq ▸ hbare)

/-- A movement with one coordinate compiles, and so do an assignment that lacks its second operand, one with the
spelling of no sign, and values that are neither numbers nor names. -/
theorem malformed_lines_compile :
    let five : Operand := .literal (.float (Binary64.ofInt 5))
    let zero : Number := .float (.zero false)
    let body : List Instruction := [.move five (.bare zero) zero, .varMath "x" five Operand.absent (.known .sum),
      .setVar "x" five, .wait (.named "1x"), .varMath "x" five (.named "3 4") (.known .sum)]
    (compile false "move 5\nvar x = 5 +\nvar x = 5 noop 2\nwait 1x\nvar x = 5 + 3 4").1 =
      .program (Standard.initial false ++ body).toArray ∧
    ¬ (Argument.bare zero).IsProper ∧ ¬ (Argument.operand (.named "1x")).IsProper ∧
    ¬ (Argument.operand (.named "3 4")).IsProper := by
  intro five zero body
  have hdigit (x : String) (hx : isVariableName x = false) (ha : x ∉ ambientNames) :
      ¬ (Argument.operand (.named x)).IsProper := by
    rintro (hname | hmem)
    · exact absurd hname.isVariableName (by simp [hx])
    · exact ha hmem
  exact ⟨by decide +kernel, id, hdigit "1x" (by decide) (by decide), hdigit "3 4" (by decide) (by decide)⟩

end PointerScript
