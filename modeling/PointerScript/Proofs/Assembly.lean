import PointerScript.Script.Compiler

/-! How source text becomes a program. The lines build items that do not depend on the instructions
the program starts with; labels name the places between the instructions of the items, and linking
resolves every jump and call to such a place. -/

namespace PointerScript

namespace Built

def instruction? : Built → Option Instruction
  | instruction inst => some inst
  | _ => none

def label? : Built → Option String
  | label name => some name
  | _ => none

end Built

def codeOf (items : List Built) : List Instruction :=
  items.filterMap Built.instruction?

/-- The labels of items, when so many instructions stand before them. -/
def placesFrom (start : Nat) : List Built → Labels
  | [] => []
  | .instruction _ :: rest => placesFrom (start + 1) rest
  | .label name :: rest => (name, start) :: placesFrom start rest
  | .nothing :: rest => placesFrom start rest

@[simp] theorem codeOf_nil : codeOf [] = [] := rfl

@[simp] theorem codeOf_instruction (inst : Instruction) (rest : List Built) :
    codeOf (.instruction inst :: rest) = inst :: codeOf rest := rfl

@[simp] theorem codeOf_label (name : String) (rest : List Built) : codeOf (.label name :: rest) = codeOf rest := rfl

@[simp] theorem codeOf_nothing (rest : List Built) : codeOf (.nothing :: rest) = codeOf rest := rfl

@[simp] theorem codeOf_append (first second : List Built) : codeOf (first ++ second) = codeOf first ++ codeOf second :=
  List.filterMap_append

theorem placesFrom_append (start : Nat) (first second : List Built) :
    placesFrom start (first ++ second) =
      placesFrom start first ++ placesFrom (start + (codeOf first).length) second := by
  induction first generalizing start with
  | nil => simp [placesFrom]
  | cons item rest ih => cases item <;> simp [placesFrom, ih, Nat.add_assoc, Nat.add_comm 1]

def namesOf (items : List Built) : List String :=
  items.filterMap Built.label?

@[simp] theorem namesOf_nil : namesOf [] = [] := rfl

@[simp] theorem namesOf_instruction (inst : Instruction) (rest : List Built) :
    namesOf (.instruction inst :: rest) = namesOf rest := rfl

@[simp] theorem namesOf_label (name : String) (rest : List Built) :
    namesOf (.label name :: rest) = name :: namesOf rest := rfl

@[simp] theorem namesOf_append (first second : List Built) :
    namesOf (first ++ second) = namesOf first ++ namesOf second :=
  List.filterMap_append

theorem placesFrom_names (start : Nat) (items : List Built) :
    (placesFrom start items).map Prod.fst = namesOf items := by
  induction items generalizing start with
  | nil => rfl
  | cons item rest ih =>
    cases item with
    | label name => exact congrArg (name :: ·) (ih start)
    | instruction => exact ih (start + 1)
    | nothing => exact ih start

/-- A label stands before, between or behind the instructions of its items. -/
theorem place_bounds {start : Nat} {items : List Built} {name : String} {place : Nat}
    (h : (name, place) ∈ placesFrom start items) : start ≤ place ∧ place ≤ start + (codeOf items).length := by
  induction items generalizing start with
  | nil => simp [placesFrom] at h
  | cons item rest ih =>
    cases item with
    | instruction inst =>
      obtain ⟨hlow, hhigh⟩ := @ih (start + 1) h
      simp only [codeOf_instruction, List.length_cons]
      omega
    | label other =>
      simp only [placesFrom, List.mem_cons, Prod.mk.injEq] at h
      rcases h with ⟨_, rfl⟩ | h
      · omega
      · exact ih h
    | nothing => exact ih h

/-- With one more instruction in front every label stands one place later. -/
theorem placesFrom_succ (start : Nat) (items : List Built) :
    placesFrom (start + 1) items = (placesFrom start items).map fun p => (p.1, p.2 + 1) := by
  induction items generalizing start with
  | nil => rfl
  | cons item rest ih => cases item <;> simp [placesFrom, ih]

namespace Instruction

/-- Whether a line of a script can build an instruction. Setting up, holding clicks back, boxes and
bare halts cannot be written; a jump has no target yet and a call no count. -/
def isWritten : Instruction → Bool
  | setup | safeMode _ | popup _ _ _ | halt => false
  | jump _ target _ => target = unlinked
  | call count target _ => count = Operand.absent && target = unlinked
  | _ => true

end Instruction

namespace Assembly

def addAll (a : Assembly) (items : List Built) : Assembly :=
  items.foldl add a

theorem addAll_eq (a : Assembly) (items : List Built) :
    a.addAll items =
      ⟨a.instructions ++ (codeOf items).toArray, a.labels ++ placesFrom a.instructions.size items⟩ := by
  induction items generalizing a with
  | nil => simp [addAll, placesFrom]
  | cons item rest ih =>
    change (a.add item).addAll rest = _
    rw [ih]
    cases item <;> simp [add, placesFrom]

theorem add_names (a : Assembly) (item : Built) :
    (a.add item).labels.map Prod.fst = a.labels.map Prod.fst ++ item.label?.toList := by
  cases item <;> simp [add, Built.label?]

/-- A line builds an item if its command is known, takes its arguments and builds the item from them. -/
theorem built_eq_ok {a : Assembly} {line : List Char} {item : Built} :
    a.built Standard.commands line = .ok item ↔
      ∃ command values, findCommand? Standard.commands (wordAndArgs line).1 = some command ∧
        command.bind (wordAndArgs line).2 = .ok values ∧
        command.build a.instructions.size a.labels values = .ok item := by
  unfold built
  cases hf : findCommand? Standard.commands (wordAndArgs line).1 with
  | none => simp [hf]
  | some command =>
    simp only [hf, Option.some.injEq, Command.run, bind, Except.bind, exists_and_left, exists_eq_left']
    cases hv : command.bind (wordAndArgs line).2 with
    | error fault => cases fault <;> simp
    | ok values =>
      simp only [Except.ok.injEq, exists_eq_left']
      cases hb : command.build a.instructions.size a.labels values with
      | error fault => cases fault <;> simp
      | ok built => simp

/-- A command of the language looks at the names of the labels so far and at nothing else. -/
theorem build_context {c : Command} (hc : c ∈ Standard.commands) (size size' : Nat) {labels labels' : Labels}
    (hl : labels.map Prod.fst = labels'.map Prod.fst) (values : List Value) :
    c.build size labels values = c.build size' labels' values := by
  have hany (name : String) : (labels.any fun p => p.1 = name) = labels'.any fun p => p.1 = name := by
    have hm (l : Labels) : (l.any fun p => p.1 = name) = (l.map Prod.fst).any fun s => s = name := by
      simp [List.any_map, Function.comp_def]
    rw [hm, hm, hl]
  simp only [Standard.commands, List.mem_cons, List.not_mem_nil, or_false] at hc
  rcases hc with rfl | rfl | rfl | rfl | rfl | rfl | rfl | rfl | rfl | rfl | rfl | rfl | rfl | rfl | rfl | rfl |
    rfl | rfl
  all_goals first | rfl | simp only [Standard.label, hany]

theorem built_context {a b : Assembly} (hl : a.labels.map Prod.fst = b.labels.map Prod.fst) (line : List Char) :
    a.built Standard.commands line = b.built Standard.commands line := by
  unfold built
  cases hf : findCommand? Standard.commands (wordAndArgs line).1 with
  | none => simp only [hf]
  | some command =>
    have hc : command ∈ Standard.commands := List.mem_of_find?_eq_some hf
    have hr : command.run a.instructions.size a.labels (wordAndArgs line).2 =
        command.run b.instructions.size b.labels (wordAndArgs line).2 := by
      simp only [Command.run, build_context hc a.instructions.size b.instructions.size hl]
    simp only [hf, hr]

private theorem assignment_written (target : String) (left right : Operand) (sign : MathSign) :
    (Standard.assignment target left right sign).isWritten = true := by
  cases sign <;> rfl

private theorem build_written {c : Command} (hc : c ∈ Standard.commands) {size : Nat} {labels : Labels}
    {values : List Value} {inst : Instruction} (h : c.build size labels values = .ok (.instruction inst)) :
    inst.isWritten = true := by
  simp only [Standard.commands, List.mem_cons, List.not_mem_nil, or_false] at hc
  rcases hc with rfl | rfl | rfl | rfl | rfl | rfl | rfl | rfl | rfl | rfl | rfl | rfl | rfl | rfl | rfl | rfl |
    rfl | rfl
  all_goals
    simp only [Standard.finish, Standard.move, Standard.moveRel, Standard.click, Standard.wait,
      Standard.doubleClick, Standard.jump, Standard.print, Standard.center, Standard.pause, Standard.goBack,
      Standard.setOffset, Standard.clearOffset, Standard.label, Standard.call, Standard.ret, Standard.printVar,
      Standard.var, Standard.plain, Standard.buildMovement, Standard.buildAssignment, Standard.misfit] at h
    repeat' split at h
  all_goals
    simp only [Except.ok.injEq, Built.instruction.injEq, reduceCtorEq] at h
  all_goals
    subst h
    first
    | (simp [Instruction.isWritten]; done)
    | exact assignment_written _ _ _ _

theorem built_written {a : Assembly} {line : List Char} {inst : Instruction}
    (h : a.built Standard.commands line = .ok (.instruction inst)) : inst.isWritten = true := by
  obtain ⟨command, values, hf, _, hb⟩ := built_eq_ok.mp h
  exact build_written (List.mem_of_find?_eq_some hf) hb

/-- Lines that build one after another give the same items from every start with the same names. -/
theorem build_items {a a' : Assembly} {number : Nat} {lines : List (List Char)}
    (h : build Standard.commands a number lines = (a', none)) :
    ∃ items, (∀ inst ∈ codeOf items, inst.isWritten = true) ∧
      ∀ (b : Assembly) (number' : Nat), b.labels.map Prod.fst = a.labels.map Prod.fst →
        build Standard.commands b number' lines = (b.addAll items, none) := by
  induction lines generalizing a number with
  | nil => exact ⟨[], by simp, fun b _ _ => rfl⟩
  | cons raw rest ih =>
    simp only [build] at h ⊢
    cases hp : plainLine raw with
    | nil =>
      simp only [hp] at h ⊢
      obtain ⟨items, hw, hi⟩ := ih h
      exact ⟨items, hw, fun b number' hn => hi b _ hn⟩
    | cons c line =>
      simp only [hp] at h ⊢
      cases hb : a.built Standard.commands (c :: line) with
      | error fault => simp [hb] at h
      | ok item =>
        simp only [hb] at h
        obtain ⟨items, hw, hi⟩ := ih h
        refine ⟨item :: items, ?_, fun b number' hn => ?_⟩
        · cases item with
          | instruction inst =>
            simp only [codeOf_instruction, List.mem_cons, forall_eq_or_imp]
            exact ⟨built_written hb, hw⟩
          | label name => exact hw
          | nothing => exact hw
        · -- A line depends on those before it only by the names of their labels.
          rw [built_context hn, hb]
          refine hi (b.add item) _ ?_
          rw [add_names, add_names, hn]

end Assembly

/-- A source text writes items if its lines build them one after another, whatever the program starts
with. -/
def Writes (source : String) (items : List Built) : Prop :=
  (∀ inst ∈ codeOf items, inst.isWritten = true) ∧ ∀ (a : Assembly) (number : Nat), a.labels = [] →
    Assembly.build Standard.commands a number (Text.lines source.toList) = (a.addAll items, none)

/-- The instruction with its target, if its label has a place. -/
def Labels.resolve (labels : Labels) (inst : Instruction) : Instruction :=
  match inst.label?.bind labels.find? with
  | some target => inst.withTarget target
  | none => inst

/-- Whether the label of an instruction, if it has one, has a place. -/
def Labels.Defines (labels : Labels) (inst : Instruction) : Prop :=
  ∀ name, inst.label? = some name → (labels.find? name).isSome = true

private theorem linkFrom_defined {labels : Labels} {inst : Instruction} (hd : labels.Defines inst)
    (rest : List Instruction) :
    linkFrom labels (inst :: rest) = (labels.resolve inst :: (linkFrom labels rest).1, (linkFrom labels rest).2) := by
  rw [linkFrom, Labels.resolve]
  cases hn : inst.label? with
  | none => rfl
  | some name =>
    obtain ⟨target, hf⟩ := Option.isSome_iff_exists.mp (hd name hn)
    simp only [Option.bind_some, hf]

private theorem linkFrom_undefined {labels : Labels} {inst : Instruction} (hd : ¬ labels.Defines inst)
    (rest : List Instruction) : ∃ name, linkFrom labels (inst :: rest) = (inst :: rest, some name) := by
  simp only [Labels.Defines, Classical.not_forall] at hd
  obtain ⟨name, hn, hf⟩ := hd
  rw [Bool.not_eq_true, Option.isSome_eq_false_iff, Option.isNone_iff_eq_none] at hf
  exact ⟨name, by simp only [linkFrom, hn, hf]⟩

/-- Linking gives every jump and call its target and fails at a label without a place. -/
theorem linkFrom_eq_none {labels : Labels} {code linked : List Instruction} :
    linkFrom labels code = (linked, none) ↔
      (∀ inst ∈ code, labels.Defines inst) ∧ linked = code.map labels.resolve := by
  induction code generalizing linked with
  | nil => simp [linkFrom, eq_comm]
  | cons inst rest ih =>
    rw [List.forall_mem_cons, List.map_cons]
    by_cases hd : labels.Defines inst
    · rcases hl : linkFrom labels rest with ⟨out, undefined⟩
      rw [linkFrom_defined hd, hl]
      simp only [hl, Prod.mk.injEq] at ih ⊢
      constructor
      · rintro ⟨rfl, rfl⟩
        obtain ⟨h, he⟩ := ih.mp ⟨rfl, rfl⟩
        exact ⟨⟨hd, h⟩, by rw [he]⟩
      · rintro ⟨⟨_, h⟩, rfl⟩
        obtain ⟨rfl, rfl⟩ := ih.mpr ⟨h, rfl⟩
        exact ⟨rfl, rfl⟩
    · obtain ⟨name, hl⟩ := linkFrom_undefined hd rest
      simp [hl, hd]

theorem initial_label (safe : Bool) {inst : Instruction} (h : inst ∈ Standard.initial safe) :
    inst.label? = none := by
  cases safe <;> simp [Standard.initial] at h <;> rcases h with rfl | rfl | rfl <;> rfl

/-- The labels of a program that starts with some instructions and goes on with items. -/
abbrev labelsOf (start : List Instruction) (items : List Built) : Labels :=
  placesFrom start.length items

private theorem compile_of_writes {safe : Bool} {source : String} {items : List Built}
    (hw : Writes source items) :
    (compile safe source).1 =
      match linkFrom (labelsOf (Standard.initial safe) items) (Standard.initial safe ++ codeOf items) with
      | (linked, none) => .program linked.toArray
      | (_, some _) => .failed := by
  have hb := hw.2 { instructions := (Standard.initial safe).toArray } 0 rfl
  rw [Assembly.addAll_eq] at hb
  simp only [compile, Compiler.compile, Compiler.compileLines, Compiler.standard, hb, Compiler.say,
    Compiler.runPass, linkPass, Compiler.withInstructions, List.nil_append, List.size_toArray,
    Array.toList_append]
  rcases linkFrom (labelsOf (Standard.initial safe) items) (Standard.initial safe ++ codeOf items) with
    ⟨linked, _ | name⟩ <;> rfl

private theorem writes_of_compile {safe : Bool} {source : String} {program : Array Instruction}
    (h : (compile safe source).1 = .program program) : ∃ items, Writes source items := by
  simp only [compile, Compiler.compile, Compiler.compileLines, Compiler.standard] at h
  rcases hb : Assembly.build Standard.commands { instructions := (Standard.initial safe).toArray } 0
    (Text.lines source.toList) with ⟨a, _ | fault⟩
  · obtain ⟨items, hw, hi⟩ := Assembly.build_items hb
    exact ⟨items, hw, fun b number hl => hi b number (by simp [hl])⟩
  · simp [hb] at h

private theorem initial_linked (safe : Bool) (labels : Labels) :
    (∀ inst ∈ Standard.initial safe, labels.Defines inst) ∧
      (Standard.initial safe).map labels.resolve = Standard.initial safe := by
  constructor
  · intro inst hi name hn
    simp [initial_label safe hi] at hn
  · refine .trans (List.map_congr_left fun inst hi => ?_) (List.map_id (Standard.initial safe))
    simp [Labels.resolve, initial_label safe hi]

instance (c : Compiled) : Decidable (∃ program, c = .program program) :=
  match c with
  | .program program => isTrue ⟨program, rfl⟩
  | .failed => isFalse nofun
  | .crashed _ => isFalse nofun

/-- A source text compiles exactly if its lines build items all of whose jumps and calls go to labels
of these items. The program is the initial instructions and the resolved instructions of the items. -/
theorem compile_eq_program {safe : Bool} {source : String} {program : Array Instruction} :
    (compile safe source).1 = .program program ↔
      ∃ items, Writes source items ∧
        (∀ inst ∈ codeOf items, (labelsOf (Standard.initial safe) items).Defines inst) ∧
        program.toList = Standard.initial safe ++
          (codeOf items).map (labelsOf (Standard.initial safe) items).resolve := by
  constructor
  · intro h
    obtain ⟨items, hw⟩ := writes_of_compile h
    rw [compile_of_writes hw] at h
    rcases hl : linkFrom (labelsOf (Standard.initial safe) items) (Standard.initial safe ++ codeOf items) with
      ⟨linked, _ | name⟩
    · simp only [hl, Compiled.program.injEq] at h
      obtain ⟨hd, he⟩ := linkFrom_eq_none.mp hl
      refine ⟨items, hw, fun inst hi => hd inst (List.mem_append_right _ hi), ?_⟩
      rw [← h, he, List.map_append, (initial_linked safe _).2]
    · simp [hl] at h
  · rintro ⟨items, hw, hd, hp⟩
    have hall : ∀ inst ∈ Standard.initial safe ++ codeOf items,
        (labelsOf (Standard.initial safe) items).Defines inst := by
      intro inst hi
      exact (List.mem_append.mp hi).elim ((initial_linked safe _).1 inst) (hd inst)
    rw [compile_of_writes hw, linkFrom_eq_none.mpr ⟨hall, rfl⟩, List.map_append, (initial_linked safe _).2, ← hp]

end PointerScript
