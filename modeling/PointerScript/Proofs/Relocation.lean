import PointerScript.Proofs.Recorded.Delivery

/-! Source texts that stand one behind the other. With a line feed between them their lines are those of the first and
then those of the second; so, if no name is defined in both, they compile to the program of the first and behind it
the instructions of the second, whose jumps and calls go as much further as the first has added. -/

namespace PointerScript

open SourceLine

namespace Text

theorem lines_eq_nil {cs : List Char} (h : lines cs = []) : cs = [] := by
  fun_cases lines cs with
  | case1 => rfl
  | case2 => simp [lines] at h
  | case3 c cs hne hend => simp [lines, hend] at h
  | case4 c cs hne hend hnil => simp [lines, hend, hnil] at h
  | case5 c cs hne hend line rest hcons => simp [lines, hend, hcons] at h

/-- A line feed between two texts ends the last line of the first one. It adds a blank line if that line has been
ended already, but for a carriage return, with which it is one line end. -/
theorem lines_joined (first second : List Char) :
    ∃ blank, (blank = [] ∨ blank = [[]]) ∧ lines (first ++ '\n' :: second) = lines first ++ blank ++ lines second := by
  fun_induction lines first with
  | case1 => exact ⟨[[]], .inr rfl, by simp [lines, show isLineEnd '\n' = true from rfl]⟩
  | case2 cs ih =>
    obtain ⟨blank, hb, hl⟩ := ih
    exact ⟨blank, hb, by simp [lines, hl]⟩
  | case3 c cs hne hend ih =>
    by_cases hr : c = '\r' ∧ cs = []
    · obtain ⟨rfl, rfl⟩ := hr
      exact ⟨[], .inl rfl, by simp [lines]⟩
    · obtain ⟨blank, hb, hl⟩ := ih
      refine ⟨blank, hb, ?_⟩
      rw [List.cons_append, lines, if_pos hend, hl]
      · rfl
      · intro rest hc h
        cases cs with
        | nil => exact hr ⟨hc, rfl⟩
        | cons d ds =>
          obtain ⟨rfl, rfl⟩ := List.cons.inj h
          exact hne ds hc rfl
  | case4 c cs hne hend hnil ih =>
    obtain rfl := lines_eq_nil hnil
    have hc : ∀ d ∈ [c], isLineEnd d = false := by simpa using hend
    exact ⟨[], .inl rfl, lines_append hc second⟩
  | case5 c cs hne hend line rest hcons ih =>
    obtain ⟨blank, hb, hl⟩ := ih
    refine ⟨blank, hb, ?_⟩
    have hr : c ≠ '\r' := by
      rintro rfl
      exact hend rfl
    rw [List.cons_append, lines, if_neg hend, hl, hcons]
    · rfl
    · intro more hc
      exact absurd hc hr

end Text

theorem sourceLines_joined (first second : String) :
    sourceLines (first ++ "\n" ++ second) = sourceLines first ++ sourceLines second := by
  obtain ⟨blank, hb, hl⟩ := Text.lines_joined first.toList second.toList
  have hblank : writtenLines blank = [] := by rcases hb with rfl | rfl <;> rfl
  have htext : (first ++ "\n" ++ second).toList = first.toList ++ '\n' :: second.toList := by simp
  rw [sourceLines, htext, hl, writtenLines_append, writtenLines_append, hblank, List.append_nil]
  rfl

/-- Texts with the same lines compile to the same programs. -/
theorem compile_congr_lines {safe : Bool} {first second : String} (h : sourceLines first = sourceLines second)
    (program : Array Instruction) :
    (compile safe first).1 = .program program ↔ (compile safe second).1 = .program program := by
  rw [compile_eq_alone, compile_eq_alone, h]

/-- The instruction with its target, if it has one, moved on. -/
def Instruction.relocated (shift : Nat) : Instruction → Instruction
  | jump count target label => jump count (target + shift) label
  | call count target label => call count (target + shift) label
  | inst => inst

theorem Instruction.relocated_unlabelled {inst : Instruction} (h : inst.label? = none) (shift : Nat) :
    inst.relocated shift = inst := by
  cases inst with
  | jump | call => cases h
  | _ => rfl

theorem Instruction.relocated_withTarget {inst : Instruction} {label : LabelName} (h : inst.label? = some label)
    (target shift : Nat) : (inst.withTarget target).relocated shift = inst.withTarget (target + shift : Nat) := by
  cases inst with
  | jump | call => simp [withTarget, relocated]
  | _ => cases h

namespace Labels

def relocated (labels : Labels) (shift : Nat) : Labels :=
  labels.map fun entry => (entry.1, entry.2 + shift)

theorem find?_append (first second : Labels) (label : LabelName) :
    Labels.find? (first ++ second) label = (first.find? label).or (second.find? label) := by
  cases label with
  | unnamed => rfl
  | named name => exact List.lookup_append

theorem find?_relocated (labels : Labels) (shift : Nat) (label : LabelName) :
    (labels.relocated shift).find? label = (labels.find? label).map (· + shift) := by
  cases label with
  | unnamed => rfl
  | named name =>
    change (List.map _ labels).lookup name = (labels.lookup name).map _
    induction labels with
    | nil => rfl
    | cons entry rest ih =>
      rw [List.map_cons, List.lookup_cons, List.lookup_cons]
      split
      · rfl
      · exact ih

variable {first second labels : Labels} {inst : Instruction}

/-- An instruction whose label has a place is resolved to it, whatever labels follow. -/
theorem resolve_before (h : first.Defines inst) (second : Labels) :
    resolve (first ++ second) inst = first.resolve inst := by
  cases hl : inst.label? with
  | none => simp only [resolve, hl, Option.bind_none]
  | some label =>
    obtain ⟨place, hp⟩ := Option.isSome_iff_exists.mp (h label hl)
    simp only [resolve, hl, Option.bind_some, find?_append, hp, Option.some_or]

/-- Labels in front of those of an instruction do not matter to it. -/
theorem resolve_behind (h : ∀ label, inst.label? = some label → first.find? label = none) (second : Labels) :
    resolve (first ++ second) inst = second.resolve inst := by
  cases hl : inst.label? with
  | none => simp only [resolve, hl, Option.bind_none]
  | some label => simp only [resolve, hl, Option.bind_some, find?_append, h label hl, Option.none_or]

/-- Where all labels are moved on, so are the targets. -/
theorem resolve_relocated (h : labels.Defines inst) (shift : Nat) :
    (labels.relocated shift).resolve inst = (labels.resolve inst).relocated shift := by
  cases hl : inst.label? with
  | none =>
    simp only [resolve, hl, Option.bind_none]
    exact (Instruction.relocated_unlabelled hl shift).symm
  | some label =>
    obtain ⟨place, hp⟩ := Option.isSome_iff_exists.mp (h label hl)
    simp only [resolve, hl, Option.bind_some, find?_relocated, hp, Option.map_some]
    exact (Instruction.relocated_withTarget hl place shift).symm

end Labels

theorem placesFrom_add (start shift : Nat) (items : List Built) :
    placesFrom (start + shift) items = Labels.relocated (placesFrom start items) shift := by
  induction shift with
  | zero => simp [Labels.relocated]
  | succ shift ih =>
    rw [← Nat.add_assoc, placesFrom_succ, ih]
    simp [Labels.relocated, Nat.add_assoc]

theorem labelsOf_append (start : List Instruction) (first second : List Built) :
    labelsOf start (first ++ second) =
      labelsOf start first ++ (labelsOf start second).relocated (codeOf first).length := by
  rw [labelsOf, placesFrom_append, placesFrom_add]

/-- What a program has behind the initial instructions. -/
def Standard.body (safe : Bool) (program : Array Instruction) : List Instruction :=
  program.toList.drop (initial safe).length

theorem Standard.body_eq {safe : Bool} {program : Array Instruction} {code : List Instruction}
    (h : program.toList = initial safe ++ code) : body safe program = code := by
  rw [body, h, List.drop_left]

/-- Two texts without a common name compile together if each does alone. -/
theorem compile_joined {safe : Bool} {first second : String} {p q : Array Instruction}
    (hp : (compile safe first).1 = .program p) (hq : (compile safe second).1 = .program q)
    (hdisjoint : ∀ name ∈ definedNames (sourceLines first), name ∉ definedNames (sourceLines second)) :
    (compile safe (first ++ "\n" ++ second)).1 = .program
      (p ++ ((Standard.body safe q).map (Instruction.relocated (Standard.body safe p).length)).toArray) := by
  obtain ⟨items, hi, hn, hd, hcode⟩ := compile_eq_alone.mp hp
  obtain ⟨others, ho, hm, he, hother⟩ := compile_eq_alone.mp hq
  rw [Standard.body_eq hcode, Standard.body_eq hother, List.length_map]
  have hlabels := labelsOf_append (Standard.initial safe) items others
  -- What the second text goes to is defined there, and so not in the first.
  have hfree : ∀ inst ∈ codeOf others, ∀ label, inst.label? = some label →
      (labelsOf (Standard.initial safe) items).find? label = none := by
    intro inst hinst label hlabel
    cases label with
    | unnamed => rfl
    | named name =>
      have hplace := he inst hinst _ hlabel
      have hname : name ∈ definedNames (sourceLines second) := by
        by_contra hn
        rw [Labels.find?, lookup_alone_none ho _ hn] at hplace
        cases hplace
      exact lookup_alone_none hi _ fun hm => hdisjoint name hm hname
  refine compile_eq_alone.mpr ⟨items ++ others, ?_, ?_, ?_, ?_⟩
  · rw [sourceLines_joined, List.map_append, hi, ho, List.map_append]
  · rw [namesOf_alone hi] at hn
    rw [namesOf_alone ho] at hm
    rw [namesOf_append, namesOf_alone hi, namesOf_alone ho]
    exact List.nodup_append.mpr ⟨hn, hm, fun a ha b hb hab => hdisjoint a ha (hab ▸ hb)⟩
  · rw [codeOf_append, hlabels]
    refine List.forall_mem_append.mpr ⟨fun inst hinst label hlabel => ?_, fun inst hinst label hlabel => ?_⟩
    · rw [Labels.find?_append, Option.isSome_or, hd inst hinst label hlabel, Bool.true_or]
    · rw [Labels.find?_append, Option.isSome_or, Labels.find?_relocated, Option.isSome_map,
        he inst hinst label hlabel, Bool.or_true]
  · rw [codeOf_append, List.map_append, Array.toList_append, hcode, hlabels, List.append_assoc]
    congr 2
    · exact (List.map_congr_left fun inst hinst => Labels.resolve_before (hd inst hinst) _).symm
    · rw [List.map_map]
      refine List.map_congr_left fun inst hinst => ?_
      rw [Labels.resolve_behind (hfree inst hinst), Labels.resolve_relocated (he inst hinst)]
      rfl

/-- Source texts without a common name compile together: to the program of the first and behind it the instructions of
the second, with their targets moved on by what the first has added. In particular a recorded script that is put
behind a script, between line feeds, leaves the instructions of the script as they are. -/
theorem concatenation_relocates {safe : Bool} {first second : String} {p q : Array Instruction}
    (hp : (compile safe first).1 = .program p) (hq : (compile safe second).1 = .program q)
    (hdisjoint : ∀ name ∈ definedNames (sourceLines first), name ∉ definedNames (sourceLines second)) :
    (compile safe (first ++ "\n" ++ second)).1 = .program
      (p ++ ((Standard.body safe q).map (Instruction.relocated (Standard.body safe p).length)).toArray) ∧
    ∀ (moment : Moment) (device : Device) (start : Binary64) (inputs : List TimedInput) (source : String),
      (recordSession moment device start inputs .ready).sent = some source →
      ∃ recorded, (compile safe source).1 = .program recorded ∧
        (compile safe (first ++ "\n" ++ source ++ "\n")).1 = .program (p ++ (Standard.body safe recorded).toArray) := by
  refine ⟨compile_joined hp hq hdisjoint, fun moment device start inputs source hsent => ?_⟩
  obtain ⟨hnames, code, hlabels, hcompile⟩ := sent_compiles hsent safe
  have hjoined := compile_joined hp hcompile fun name _ => by simp [hnames]
  refine ⟨_, hcompile, ?_⟩
  -- The line feed at the end adds no line, and a recorded script has no targets.
  have hlines : sourceLines (first ++ "\n" ++ source ++ "\n") = sourceLines (first ++ "\n" ++ source) := by
    have hend := sourceLines_joined (first ++ "\n" ++ source) ""
    rwa [String.append_empty, show sourceLines "" = [] from rfl, List.append_nil] at hend
  rw [compile_congr_lines hlines, hjoined, Standard.body_eq List.toList_toArray,
    List.map_congr_left fun inst hi => Instruction.relocated_unlabelled (hlabels inst hi) _, List.map_id']

/-- A text that ends in a carriage return, behind a jump to where the next one begins, one with a call and a jump of
its own, and the script of a recorded click. -/
theorem looping_scripts_are_joined :
    let first := "label a\nclick\njump a 2\njump b\nlabel b\r"
    let second := "call c\nlabel c ; again\n  jump c"
    let number (n : Int) : Operand := .literal (.float (Binary64.ofInt n))
    let code : List Instruction :=
      [.leftClick, .jump (number 2) 2 (.named "a"), .jump Operand.absent 5 (.named "b")]
    let calls (target : Int) : List Instruction :=
      [.call Operand.absent target (.named "c"), .jump Operand.absent target (.named "c")]
    let click : List Instruction :=
      [.wait (number 1), .move (number 3) (.operand (number 4)) (.float (.zero false)), .leftClick]
    let inputs : List TimedInput := [⟨some (Binary64.ofInt 1), .mouse (.int 3) (.int 4) .left true⟩]
    let p := (Standard.initial false ++ code).toArray
    let q := (Standard.initial false ++ calls 3).toArray
    (compile false first).1 = .program p ∧ (compile false second).1 = .program q ∧
    (∀ name ∈ definedNames (sourceLines first), name ∉ definedNames (sourceLines second)) ∧
    (compile false (first ++ "\n" ++ second)).1 = .program (p ++ (calls 6).toArray) ∧
    ∃ source, (recordSession {} {} (.zero false) inputs .ready).sent = some source ∧
      (compile false (first ++ "\n" ++ source ++ "\n")).1 = .program (p ++ click.toArray) := by
  intro first second number code calls click inputs p q
  let source := "\n".intercalate (Listing.header {} ++ ["wait 1.0", "move 3 4 ", "click left"])
  have hp : (compile false first).1 = .program p := by decide +kernel
  have hq : (compile false second).1 = .program q := by decide +kernel
  have hd : ∀ name ∈ definedNames (sourceLines first), name ∉ definedNames (sourceLines second) := by decide +kernel
  have hs : (recordSession {} {} (.zero false) inputs .ready).sent = some source := by decide +kernel
  have hc : (compile false source).1 = .program (Standard.initial false ++ click).toArray := by decide +kernel
  obtain ⟨hjoined, hsent⟩ := concatenation_relocates hp hq hd
  obtain ⟨recorded, hr, hmore⟩ := hsent {} {} (.zero false) inputs source hs
  obtain rfl : (Standard.initial false ++ click).toArray = recorded := Compiled.program.inj (hc.symm.trans hr)
  exact ⟨hp, hq, hd, hjoined.trans (by decide +kernel), source, hs, hmore⟩

end PointerScript
