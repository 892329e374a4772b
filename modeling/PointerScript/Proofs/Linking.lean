import Mathlib.Data.List.Basic
import PointerScript.Proofs.SourceLines

/-! Linking. Whether a source text compiles, and where its jumps and calls go, can be read off its lines
in any order: a label stands behind the instructions of the lines before the one that defines it, be that
before or behind the lines that go there. -/

namespace PointerScript

open SourceLine

def definedNames (lines : List (List Char)) : List String :=
  lines.filterMap defined?

/-- The place of a label in a program: behind its first instructions and those of the lines before the one
that defines the label. -/
def placeIn (first : Nat) (lines : List (List Char)) (name : String) : Nat :=
  first + (lines.takeWhile fun line => defined? line ≠ some name).countP fun line => (instruction? line).isSome

/-- The instruction of a line, with its target where it goes to a label. -/
def linked? (place : String → Nat) (line : List Char) : Option Instruction :=
  (instruction? line).map fun inst =>
    match goal? line with
    | some (.named name) => inst.withTarget (place name)
    | _ => inst

private theorem instruction?_alone {line : List Char} {item : Built} (h : alone line = .ok item) :
    instruction? line = item.instruction? := by
  simp only [instruction?, h]

/-- Lines that build alone build items. -/
theorem exists_items {lines : List (List Char)} (h : ∀ line ∈ lines, ∃ item, alone line = .ok item) :
    ∃ items : List Built, lines.map alone = items.map .ok := by
  induction lines with
  | nil => exact ⟨[], rfl⟩
  | cons line lines ih =>
    rw [List.forall_mem_cons] at h
    obtain ⟨item, hi⟩ := h.1
    obtain ⟨items, hr⟩ := ih h.2
    exact ⟨item :: items, by rw [List.map_cons, List.map_cons, hi, hr]⟩

section

variable {lines : List (List Char)} {items : List Built} (h : lines.map alone = items.map .ok)
include h

theorem codeOf_alone : codeOf items = lines.filterMap instruction? := by
  induction lines generalizing items with
  | nil =>
    obtain rfl : items = [] := by simpa [eq_comm] using h
    rfl
  | cons line lines ih =>
    cases items with
    | nil => simp at h
    | cons item items =>
      rw [List.map_cons, List.map_cons, List.cons.injEq] at h
      rw [codeOf, List.filterMap_cons, List.filterMap_cons, instruction?_alone h.1, ← ih h.2]
      rfl

theorem namesOf_alone : namesOf items = definedNames lines := by
  induction lines generalizing items with
  | nil =>
    obtain rfl : items = [] := by simpa [eq_comm] using h
    rfl
  | cons line lines ih =>
    cases items with
    | nil => simp at h
    | cons item items =>
      rw [List.map_cons, List.map_cons, List.cons.injEq] at h
      rw [namesOf, definedNames, List.filterMap_cons, List.filterMap_cons, (alone_names h.1).1]
      have hrest := ih h.2
      rw [namesOf, definedNames] at hrest
      rw [hrest]

/-- The table of labels gives each name that is defined its place. -/
theorem lookup_alone (start : Nat) {name : String} (hn : name ∈ definedNames lines) :
    (placesFrom start items).lookup name = some (placeIn start lines name) := by
  induction lines generalizing items start with
  | nil => simp [definedNames] at hn
  | cons line lines ih =>
    cases items with
    | nil => simp at h
    | cons item items =>
      rw [List.map_cons, List.map_cons, List.cons.injEq] at h
      have hline := (alone_names h.1).1
      have hinst := instruction?_alone h.1
      by_cases hd : defined? line = some name
      · -- The line defines the name, so it stands at the start.
        rw [hd] at hline
        cases item with
        | label other =>
          obtain rfl : other = name := by simpa [Built.label?] using hline
          simp [placesFrom, placeIn, hd]
        | instruction => simp [Built.label?] at hline
        | nothing => simp [Built.label?] at hline
      · have hlater : name ∈ definedNames lines := by
          obtain ⟨other, hm, ho⟩ := List.mem_filterMap.mp hn
          rcases List.mem_cons.mp hm with rfl | hm
          · exact absurd ho hd
          · exact List.mem_filterMap.mpr ⟨other, hm, ho⟩
        have hplace : placeIn start (line :: lines) name =
            placeIn (start + if (instruction? line).isSome = true then 1 else 0) lines name := by
          simp only [placeIn, List.takeWhile_cons, hd, ne_eq, not_false_eq_true, decide_true, if_true,
            List.countP_cons]
          omega
        rw [hplace, hinst]
        cases item with
        | label other =>
          have hne : (name == other) = false := by
            rw [beq_eq_false_iff_ne]
            rintro rfl
            exact hd hline.symm
          rw [placesFrom, List.lookup_cons, hne]
          exact ih h.2 start hlater
        | instruction inst => exact ih h.2 (start + 1) hlater
        | nothing => exact ih h.2 start hlater

theorem lookup_alone_none (start : Nat) {name : String} (hn : name ∉ definedNames lines) :
    (placesFrom start items).lookup name = none := by
  rw [List.lookup_eq_none_iff]
  intro p hp
  rw [bne_iff_ne]
  rintro rfl
  rw [← namesOf_alone h, ← placesFrom_names start] at hn
  exact hn (List.mem_map_of_mem hp)

theorem goal?_alone {line : List Char} (hl : line ∈ lines) :
    goal? line = (instruction? line).bind Instruction.label? := by
  have hm : alone line ∈ items.map .ok := h ▸ List.mem_map_of_mem hl
  obtain ⟨item, _, hi⟩ := List.mem_map.mp hm
  rw [instruction?_alone hi.symm, (alone_names hi.symm).2]

/-- A label has a place if its name is among those that are defined. -/
theorem find?_alone (start : List Instruction) (label : LabelName) :
    ((labelsOf start items).find? label).isSome = true ↔ ∃ name ∈ definedNames lines, label = .named name := by
  cases label with
  | unnamed => simp [Labels.find?]
  | named name =>
    by_cases hn : name ∈ definedNames lines
    · simp [Labels.find?, lookup_alone h _ hn, hn]
    · simp [Labels.find?, lookup_alone_none h _ hn, hn]

/-- Jumps and calls have a place to go to exactly if their lines name what some line defines. -/
theorem defines_alone (start : List Instruction) :
    (∀ inst ∈ codeOf items, (labelsOf start items).Defines inst) ↔
      ∀ line ∈ lines, ∀ label, goal? line = some label → ∃ name ∈ definedNames lines, label = .named name := by
  rw [codeOf_alone h]
  constructor
  · intro hd line hl label hlabel
    rw [goal?_alone h hl, Option.bind_eq_some_iff] at hlabel
    obtain ⟨inst, hi, hname⟩ := hlabel
    exact (find?_alone h start label).mp (hd inst (List.mem_filterMap.mpr ⟨line, hl, hi⟩) label hname)
  · intro hd inst hi label hname
    obtain ⟨line, hl, hi⟩ := List.mem_filterMap.mp hi
    refine (find?_alone h start label).mpr (hd line hl label ?_)
    rw [goal?_alone h hl, hi, Option.bind_some, hname]

/-- Linking gives the instruction of each line the place of the label that the line names. -/
theorem resolve_alone (start : List Instruction)
    (hd : ∀ inst ∈ codeOf items, (labelsOf start items).Defines inst) :
    (codeOf items).map (labelsOf start items).resolve = lines.filterMap (linked? (placeIn start.length lines)) := by
  have hgoals := (defines_alone h start).mp hd
  rw [codeOf_alone h, List.map_filterMap]
  apply List.filterMap_congr
  intro line hl
  rw [linked?]
  have hnames := goal?_alone h hl
  cases hinst : instruction? line with
  | none => rfl
  | some inst =>
    rw [hinst, Option.bind_some] at hnames
    rw [Option.map_some, Option.map_some, Labels.resolve, ← hnames]
    cases hgoal : goal? line with
    | none => rfl
    | some label =>
      obtain ⟨name, hn, rfl⟩ := hgoals line hl label hgoal
      simp only [Option.bind_some, Labels.find?, lookup_alone h _ hn]

end

/-- Linking is exact. A source text compiles if and only if each of its lines builds alone, no name is
defined twice, and each jump and call names what some line defines, be it before or behind. The program is
then the initial instructions and the instruction of each line that has one, in the order of the lines,
and a jump or a call goes behind the instructions of the lines before the one that defines its label.
The names are those that can be read off the lines. -/
theorem linking_is_exact (safe : Bool) (source : String) :
    ((∃ program, (compile safe source).1 = .program program) ↔
      (∀ line ∈ sourceLines source, ∃ item, alone line = .ok item) ∧ (definedNames (sourceLines source)).Nodup ∧
      ∀ line ∈ sourceLines source, ∀ label, goal? line = some label →
        ∃ name ∈ definedNames (sourceLines source), label = .named name) ∧
    (∀ program, (compile safe source).1 = .program program →
      program.toList = Standard.initial safe ++
        (sourceLines source).filterMap (linked? (placeIn (Standard.initial safe).length (sourceLines source)))) ∧
    ∀ line item, alone line = .ok item →
      item.label? = defined? line ∧ item.instruction?.bind Instruction.label? = goal? line := by
  refine ⟨⟨?_, ?_⟩, ?_, ?_⟩
  · rintro ⟨program, hc⟩
    obtain ⟨items, hi, hn, hd, _⟩ := compile_eq_alone.mp hc
    refine ⟨?_, namesOf_alone hi ▸ hn, (defines_alone hi _).mp hd⟩
    intro line hl
    have hm : alone line ∈ items.map .ok := hi ▸ List.mem_map_of_mem hl
    obtain ⟨item, _, he⟩ := List.mem_map.mp hm
    exact ⟨item, he.symm⟩
  · rintro ⟨hb, hn, hg⟩
    obtain ⟨items, hi⟩ := exists_items hb
    rw [← namesOf_alone hi] at hn
    exact ⟨_, compile_eq_alone.mpr ⟨items, hi, hn, (defines_alone hi _).mpr hg, rfl⟩⟩
  · intro program hc
    obtain ⟨items, hi, _, hd, hp⟩ := compile_eq_alone.mp hc
    rw [hp, resolve_alone hi _ hd]
  · intro line item h
    exact alone_names h

/-- A jump forward to a label behind the last instruction, and a call back to a name of two words. -/
theorem scattered_labels_are_linked :
    let source := "jump z 2\nlabel a b ; here\n\nlabel c\n  click\ncall  a b\nlabel z"
    let body : List Instruction := [.jump (.literal (.float (Binary64.ofInt 2))) 5 (.named "z"), .leftClick,
      .call Operand.absent 3 (.named "a b")]
    let program := (Standard.initial false ++ body).toArray
    (compile false source).1 = .program program ∧
    definedNames (sourceLines source) = ["a b", "c", "z"] ∧
    program.toList = Standard.initial false ++
      (sourceLines source).filterMap (linked? (placeIn (Standard.initial false).length (sourceLines source))) := by
  intro source body program
  have hc : (compile false source).1 = .program program := by decide +kernel
  have hn : definedNames (sourceLines source) = ["a b", "c", "z"] := by decide +kernel
  exact ⟨hc, hn, (linking_is_exact false source).2.1 program hc⟩

end PointerScript
