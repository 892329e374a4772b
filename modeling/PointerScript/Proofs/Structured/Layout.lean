import PointerScript.Proofs.ControlFlow
import PointerScript.Proofs.Structured.Lines

/-! Where the blocks of a compiled structured script stand. Behind the initial instructions comes the
main block, then the functions one after another; loops jump to their own start and calls to the start
of their function. -/

namespace PointerScript

/-- Instructions stand in a program from an index on. -/
def CodeAt (program : Array Instruction) (start : Nat) (code : List Instruction) : Prop :=
  ∀ i, i < code.length → program[start + i]? = code[i]?

namespace CodeAt

variable {program : Array Instruction} {start : Nat} {inst : Instruction} {code first second : List Instruction}

theorem head (h : CodeAt program start (inst :: code)) : program[start]? = some inst := by
  simpa using h 0 (by simp)

theorem tail (h : CodeAt program start (inst :: code)) : CodeAt program (start + 1) code := by
  intro i hi
  have hs := h (i + 1) (by simpa using hi)
  rwa [List.getElem?_cons_succ, ← Nat.add_assoc, Nat.add_right_comm] at hs

theorem left (h : CodeAt program start (first ++ second)) : CodeAt program start first := by
  intro i hi
  rw [h i (by simp; omega), List.getElem?_append_left hi]

theorem right (h : CodeAt program start (first ++ second)) : CodeAt program (start + first.length) second := by
  intro i hi
  rw [Nat.add_assoc, h (first.length + i) (by simpa using hi), List.getElem?_append_right (by omega)]
  simp

theorem lt_size (h : CodeAt program start code) {i : Nat} (hi : i < code.length) : start + i < program.size := by
  have hget := h i hi
  rw [List.getElem?_eq_getElem hi] at hget
  exact (Array.getElem?_eq_some_iff.mp hget).1

end CodeAt

theorem codeAt_toArray (first second : List Instruction) : CodeAt (first ++ second).toArray first.length second := by
  intro i _
  rw [List.getElem?_toArray, List.getElem?_append_right (by omega)]
  simp

namespace Block

def size : Block → Nat
  | done => 0
  | command _ rest => rest.size + 1
  | loop _ _ _ body rest => body.size + 1 + rest.size
  | call _ rest => rest.size + 1

/-- The instructions of a block that stands at an index, when the functions start at given places. -/
def code (entry : String → Nat) (start : Nat) : Block → List Instruction
  | done => []
  | command line rest => instructionOf line :: rest.code entry (start + 1)
  | loop label count _ body rest =>
    body.code entry start ++
      .jump (Operand.read count) start (.named label) :: rest.code entry (start + body.size + 1)
  | call name rest => .call Operand.absent (entry name) (.named name) :: rest.code entry (start + 1)

theorem length_code (entry : String → Nat) (start : Nat) (block : Block) :
    (block.code entry start).length = block.size := by
  induction block generalizing start with
  | done => rfl
  | command line rest ih => simp [code, size, ih]
  | loop label count times body rest ihb ihr => simp [code, size, ihb, ihr]; omega
  | call name rest ih => simp [code, size, ih]

theorem length_items (block : Block) : (codeOf block.items).length = block.size := by
  induction block with
  | done => rfl
  | command line rest ih => simp [items, size, ih]
  | loop label count times body rest ihb ihr => simp [items, size, ihb, ihr]; omega
  | call name rest ih => simp [items, size, ih]

/-- Linking a block, when the labels in it and the functions it calls have these places. -/
theorem resolve_items {labels : Labels} {entry : String → Nat} {block : Block} {start : Nat}
    (hl : ∀ p ∈ placesFrom start block.items, labels.lookup p.1 = some p.2)
    (hc : ∀ name ∈ block.calls, labels.lookup name = some (entry name))
    (hp : ∀ line ∈ block.commands, (instructionOf line).isPlain = true) :
    (codeOf block.items).map labels.resolve = block.code entry start := by
  induction block generalizing start with
  | done => rfl
  | command line rest ih =>
    rw [commands, List.forall_mem_cons] at hp
    rw [items, codeOf_instruction, List.map_cons, resolve_plain labels hp.1, code, ih hl hc hp.2]
  | loop label count times body rest ihb ihr =>
    rw [commands, List.forall_mem_append] at hp
    rw [calls, List.forall_mem_append] at hc
    have hplaces : placesFrom start (loop label count times body rest).items = (label, start) ::
        (placesFrom start body.items ++ placesFrom (start + body.size + 1) rest.items) := by
      simp [items, placesFrom, placesFrom_append, length_items]
    rw [hplaces, List.forall_mem_cons, List.forall_mem_append] at hl
    have hjump : labels.resolve (.jump (Operand.read count) Instruction.unlinked (.named label)) =
        .jump (Operand.read count) start (.named label) := by
      simp [Labels.resolve, Instruction.label?, Labels.find?, hl.1, Instruction.withTarget]
    rw [items, codeOf_label, codeOf_append, codeOf_instruction, List.map_append, List.map_cons, hjump,
      ihb hl.2.1 hc.1 hp.1, ihr hl.2.2 hc.2 hp.2, code]
  | call name rest ih =>
    rw [calls, List.forall_mem_cons] at hc
    have hcall : labels.resolve (.call Operand.absent Instruction.unlinked (.named name)) =
        .call Operand.absent (entry name) (.named name) := by
      simp only [Labels.resolve, Instruction.label?, Option.bind_some, Labels.find?, hc.1, Instruction.withTarget]
    rw [items, codeOf_instruction, List.map_cons, hcall, code, ih hl hc.2 hp]

end Block

namespace Script

/-- The instructions of functions that stand one after another. -/
def functionsCode (entry : String → Nat) : Nat → List (String × Block) → List Instruction
  | _, [] => []
  | start, f :: rest => f.2.code entry start ++ .ret :: functionsCode entry (start + f.2.size + 1) rest

def functionsItems (functions : List (String × Block)) : List Built :=
  functions.flatMap fun f => .label f.1 :: (f.2.items ++ [.instruction .ret])

private theorem places_functions (start : Nat) (f : String × Block) (rest : List (String × Block)) :
    placesFrom start (functionsItems (f :: rest)) = (f.1, start) ::
      (placesFrom start f.2.items ++ placesFrom (start + f.2.size + 1) (functionsItems rest)) := by
  simp [functionsItems, placesFrom, placesFrom_append, Block.length_items]

private theorem resolve_functions {labels : Labels} {entry : String → Nat} {functions : List (String × Block)}
    {start : Nat}
    (hl : ∀ p ∈ placesFrom start (functionsItems functions), labels.lookup p.1 = some p.2)
    (hc : ∀ f ∈ functions, ∀ name ∈ f.2.calls, labels.lookup name = some (entry name))
    (hp : ∀ f ∈ functions, ∀ line ∈ f.2.commands, (instructionOf line).isPlain = true) :
    (codeOf (functionsItems functions)).map labels.resolve = functionsCode entry start functions := by
  induction functions generalizing start with
  | nil => rfl
  | cons f rest ih =>
    rw [places_functions, List.forall_mem_cons, List.forall_mem_append] at hl
    rw [List.forall_mem_cons] at hc hp
    have hcode : codeOf (functionsItems (f :: rest)) = codeOf f.2.items ++ .ret :: codeOf (functionsItems rest) := by
      simp [functionsItems]
    rw [hcode, List.map_append, List.map_cons, Block.resolve_items hl.2.1 hc.1 hp.1, ih hl.2.2 hc.2 hp.2,
      functionsCode]
    rfl

section

variable {program : Array Instruction} {entry : String → Nat} {functions : List (String × Block)} {start : Nat}

theorem lookup_cons_cases {f name : String} {block body : Block} {rest : List (String × Block)}
    (h : ((name, block) :: rest).lookup f = some body) :
    (f = name ∧ body = block) ∨ rest.lookup f = some body := by
  rw [List.lookup_cons] at h
  split at h
  · rename_i heq
    exact .inl ⟨by simpa using heq, by simpa using h.symm⟩
  · exact .inr h

/-- A function stands at its entry and ends with a return. -/
private theorem function_at (hcode : CodeAt program start (functionsCode entry start functions))
    (hentry : ∀ p ∈ placesFrom start (functionsItems functions), entry p.1 = p.2) {f : String} {body : Block}
    (hf : functions.lookup f = some body) :
    start ≤ entry f ∧ CodeAt program (entry f) (body.code entry (entry f) ++ [.ret]) := by
  induction functions generalizing start with
  | nil => simp at hf
  | cons head rest ih =>
    obtain ⟨name, block⟩ := head
    rw [places_functions, List.forall_mem_cons, List.forall_mem_append] at hentry
    rw [functionsCode] at hcode
    rcases lookup_cons_cases hf with ⟨rfl, rfl⟩ | hf
    · have he : entry f = start := hentry.1
      rw [he]
      refine ⟨Nat.le_refl _, ?_⟩
      rw [← List.singleton_append, ← List.append_assoc] at hcode
      exact hcode.left
    · have hrest := hcode.right.tail
      rw [Block.length_code] at hrest
      obtain ⟨hlow, hat⟩ := ih hrest hentry.2.2 hf
      exact ⟨by omega, hat⟩

/-- Two functions do not overlap. -/
private theorem functions_apart (hcode : CodeAt program start (functionsCode entry start functions))
    (hentry : ∀ p ∈ placesFrom start (functionsItems functions), entry p.1 = p.2) {f g : String} {body other : Block}
    (hf : functions.lookup f = some body) (hg : functions.lookup g = some other) (hne : f ≠ g) :
    entry f + body.size < entry g ∨ entry g + other.size < entry f := by
  induction functions generalizing start with
  | nil => simp at hf
  | cons head rest ih =>
    obtain ⟨name, block⟩ := head
    rw [places_functions, List.forall_mem_cons, List.forall_mem_append] at hentry
    rw [functionsCode] at hcode
    have hrest := hcode.right.tail
    rw [Block.length_code] at hrest
    dsimp only at hrest hentry
    rcases lookup_cons_cases hf with ⟨rfl, rfl⟩ | hf' <;> rcases lookup_cons_cases hg with ⟨rfl, rfl⟩ | hg'
    · exact absurd rfl hne
    · have hlow := (function_at hrest hentry.2.2 hg').1
      exact .inl (by omega)
    · have hlow := (function_at hrest hentry.2.2 hf').1
      exact .inr (by omega)
    · exact ih hrest hentry.2.2 hf' hg'

end

/-- Where the parts of a script stand in its program. -/
structure Layout (s : Script) (safe : Bool) (program : Array Instruction) (entry : String → Nat) : Prop where
  main : CodeAt program (Standard.first safe) (s.main.code entry (Standard.first safe) ++ [.finish])
  function : ∀ f body, s.functions.lookup f = some body →
    CodeAt program (entry f) (body.code entry (entry f) ++ [.ret])
  behind : ∀ f body, s.functions.lookup f = some body → Standard.first safe + s.main.size < entry f
  apart : ∀ f body g other, s.functions.lookup f = some body → s.functions.lookup g = some other → f ≠ g →
    entry f + body.size < entry g ∨ entry g + other.size < entry f

private theorem layout_of_code {s : Script} {safe : Bool} {program : Array Instruction} {entry : String → Nat}
    (hcode : CodeAt program (Standard.first safe) (s.main.code entry (Standard.first safe) ++
      .finish :: functionsCode entry (Standard.first safe + s.main.size + 1) s.functions))
    (hentry : ∀ p ∈ placesFrom (Standard.first safe + s.main.size + 1) (functionsItems s.functions),
      entry p.1 = p.2) : s.Layout safe program entry := by
  have hfuns := hcode.right.tail
  rw [Block.length_code] at hfuns
  rw [← List.singleton_append, ← List.append_assoc] at hcode
  exact ⟨hcode.left, fun f body hf => (function_at hfuns hentry hf).2,
    fun f body hf => (function_at hfuns hentry hf).1, fun f body g other => functions_apart hfuns hentry⟩

private theorem places_items (s : Script) (start : Nat) :
    placesFrom start s.items = placesFrom start s.main.items ++
      placesFrom (start + s.main.size + 1) (functionsItems s.functions) := by
  simp [items, placesFrom_append, placesFrom, Block.length_items, functionsItems]

private theorem lookup_of_nodup {labels : Labels} (hn : (labels.map Prod.fst).Nodup) :
    ∀ p ∈ labels, labels.lookup p.1 = some p.2 := by
  induction labels with
  | nil => simp
  | cons p rest ih =>
    rw [List.map_cons, List.nodup_cons] at hn
    refine List.forall_mem_cons.mpr ⟨by rw [List.lookup_cons, beq_self_eq_true], fun q hq => ?_⟩
    have hne : q.1 ≠ p.1 := fun he => hn.1 (he ▸ List.mem_map_of_mem hq)
    rw [List.lookup_cons, beq_false_of_ne hne]
    exact ih hn.2 q hq

/-- The labels that a block refers to are its own and those of the functions it calls. -/
private theorem label_items {block : Block} (hp : ∀ line ∈ block.commands, (instructionOf line).isPlain = true) :
    ∀ inst ∈ codeOf block.items, ∀ label, inst.label? = some label →
      ∃ name, label = .named name ∧ (name ∈ block.labels ∨ name ∈ block.calls) := by
  induction block with
  | done => simp [Block.items]
  | command line rest ih =>
    rw [Block.commands, List.forall_mem_cons] at hp
    refine List.forall_mem_cons.mpr ⟨fun label hl => ?_, ih hp.2⟩
    simp [label?_plain hp.1] at hl
  | loop label count times body rest ihb ihr =>
    rw [Block.commands, List.forall_mem_append] at hp
    rw [Block.items, codeOf_label, codeOf_append, codeOf_instruction, List.forall_mem_append, List.forall_mem_cons]
    refine ⟨fun inst hi other hl => ?_, fun other hl => ?_, fun inst hi other hl => ?_⟩
    · obtain ⟨name, rfl, hn⟩ := ihb hp.1 inst hi other hl
      exact ⟨name, rfl, by simp [Block.labels, Block.calls]; tauto⟩
    · obtain rfl : .named label = other := by simpa [Instruction.label?] using hl
      exact ⟨label, rfl, .inl (by simp [Block.labels])⟩
    · obtain ⟨name, rfl, hn⟩ := ihr hp.2 inst hi other hl
      exact ⟨name, rfl, by simp [Block.labels, Block.calls]; tauto⟩
  | call name rest ih =>
    refine List.forall_mem_cons.mpr ⟨fun label hl => ?_, fun inst hi label hl => ?_⟩
    · obtain rfl : .named name = label := by simpa [Instruction.label?] using hl
      exact ⟨name, rfl, .inr (by simp [Block.calls])⟩
    · obtain ⟨other, rfl, hn⟩ := ih hp inst hi label hl
      exact ⟨other, rfl, by simp [Block.labels, Block.calls]; tauto⟩

section

variable {s : Script} (h : s.Structured)
include h

private theorem mem_labels_of_calls {block : Block} (hm : block ∈ s.blocks) {name : String}
    (hn : name ∈ block.calls) : name ∈ s.labels := by
  obtain ⟨f, hf, rfl⟩ := List.mem_map.mp (h.defined block hm name hn)
  exact List.mem_append_right _ (List.mem_flatMap.mpr ⟨f, hf, by simp⟩)

private theorem defines_items (hb : s.CommandsBuild) :
    ∀ inst ∈ codeOf s.items, ∀ label, inst.label? = some label → ∃ name, label = .named name ∧ name ∈ s.labels := by
  have hblock {block : Block} (hm : block ∈ s.blocks) (hs : block.labels ⊆ s.labels) :
      ∀ inst ∈ codeOf block.items, ∀ label, inst.label? = some label →
        ∃ name, label = .named name ∧ name ∈ s.labels := by
    intro inst hi label hl
    obtain ⟨name, rfl, hn⟩ := label_items (fun line hl => (hb block hm line hl).2) inst hi label hl
    exact ⟨name, rfl, hn.elim (fun hn => hs hn) (mem_labels_of_calls h hm)⟩
  rw [items, codeOf_append, codeOf_instruction, List.forall_mem_append, List.forall_mem_cons]
  refine ⟨hblock (by simp [blocks]) (List.subset_append_left _ _), by simp [Instruction.label?], fun inst hi => ?_⟩
  obtain ⟨item, hitem, hinst⟩ := List.mem_filterMap.mp hi
  obtain ⟨f, hf, hitem⟩ := List.mem_flatMap.mp hitem
  have hcode : inst ∈ codeOf (.label f.1 :: (f.2.items ++ [.instruction .ret])) :=
    List.mem_filterMap.mpr ⟨item, hitem, hinst⟩
  simp only [codeOf_label, codeOf_append, codeOf_instruction, codeOf_nil, List.mem_append, List.mem_singleton] at hcode
  rcases hcode with hcode | rfl
  · refine hblock (List.mem_cons_of_mem _ (List.mem_map_of_mem hf)) (fun name hn => ?_) inst hcode
    exact List.mem_append_right _ (List.mem_flatMap.mpr ⟨f, hf, List.mem_cons_of_mem _ hn⟩)
  · simp [Instruction.label?]

/-- Linking a script gives the code of its main block and of its functions. -/
private theorem linked_items (hb : s.CommandsBuild) {start : Nat} {entry : String → Nat}
    (hlookup : ∀ p ∈ placesFrom start s.items, (placesFrom start s.items).lookup p.1 = some p.2)
    (hentry : ∀ p ∈ placesFrom start s.items, entry p.1 = p.2) :
    (∀ inst ∈ codeOf s.items, Labels.Defines (placesFrom start s.items) inst) ∧
      (codeOf s.items).map (Labels.resolve (placesFrom start s.items)) =
        s.main.code entry start ++ .finish :: functionsCode entry (start + s.main.size + 1) s.functions := by
  have hnamed {name : String} (hn : name ∈ s.labels) :
      (placesFrom start s.items).lookup name = some (entry name) := by
    rw [← names_items, ← placesFrom_names start, List.mem_map] at hn
    obtain ⟨p, hm, rfl⟩ := hn
    rw [hlookup p hm, hentry p hm]
  constructor
  · intro inst hi label hl
    obtain ⟨name, rfl, hn⟩ := defines_items h hb inst hi label hl
    exact Option.isSome_iff_exists.mpr ⟨_, hnamed hn⟩
  · have hplain : ∀ block ∈ s.blocks, ∀ line ∈ block.commands, (instructionOf line).isPlain = true :=
      fun block hm line hl => (hb block hm line hl).2
    have hcalls : ∀ block ∈ s.blocks, ∀ name ∈ block.calls,
        (placesFrom start s.items).lookup name = some (entry name) :=
      fun block hm name hn => hnamed (mem_labels_of_calls h hm hn)
    have hfunction : ∀ f ∈ s.functions, f.2 ∈ s.blocks :=
      fun f hf => List.mem_cons_of_mem _ (List.mem_map_of_mem hf)
    have hplaces := places_items s start
    have hmain := Block.resolve_items
      (fun p hp => hlookup p (hplaces ▸ List.mem_append_left _ hp)) (hcalls s.main (by simp [blocks]))
      (hplain s.main (by simp [blocks]))
    have hfuns := resolve_functions
      (fun p hp => hlookup p (hplaces ▸ List.mem_append_right _ hp)) (fun f hf => hcalls f.2 (hfunction f hf))
      fun f hf => hplain f.2 (hfunction f hf)
    have hcode : codeOf s.items = codeOf s.main.items ++ .finish :: codeOf (functionsItems s.functions) := by
      simp [items, functionsItems]
    rw [hcode, List.map_append, List.map_cons, hmain, hfuns]
    rfl

/-- A structured script whose commands can be built compiles, and its parts stand where they should. -/
theorem Structured.compiles (hb : s.CommandsBuild) (safe : Bool) :
    ∃ program entry, (compile safe s.source).1 = .program program ∧ s.Layout safe program entry := by
  let labels := labelsOf (Standard.initial safe) s.items
  let entry := fun name => (labels.lookup name).getD 0
  have hlookup : ∀ p ∈ labels, labels.lookup p.1 = some p.2 :=
    lookup_of_nodup (by rw [placesFrom_names, names_items]; exact h.distinct)
  have hentry : ∀ p ∈ labels, entry p.1 = p.2 := fun p hp => by simp [entry, hlookup p hp]
  obtain ⟨hdefines, hcode⟩ := linked_items h hb hlookup hentry
  refine ⟨(Standard.initial safe ++ (codeOf s.items).map labels.resolve).toArray, entry,
    compile_eq_program.mpr ⟨s.items, h.writes hb, hdefines, rfl⟩, layout_of_code ?_ fun p hp => ?_⟩
  · have hat := codeAt_toArray (Standard.initial safe) ((codeOf s.items).map labels.resolve)
    rwa [hcode] at hat ⊢
  · have hm : p ∈ placesFrom (Standard.first safe) s.items := by
      rw [places_items]
      exact List.mem_append_right _ hp
    exact hentry p hm

end

end Script

end PointerScript
