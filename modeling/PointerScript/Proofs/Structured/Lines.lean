import Mathlib.Data.List.TakeWhile
import PointerScript.Proofs.Assembly
import PointerScript.Proofs.Effects
import PointerScript.Proofs.Structured.Script

/-! What the lines of a structured script build. Each line builds one item, whatever was built before
it; so the lines of a script with distinct labels build the items of its blocks. -/

namespace PointerScript

namespace Text

theorem isBlank_of_isLineEnd {c : Char} (h : isLineEnd c = true) : isBlank c = true := by
  simp only [isLineEnd, isBlank, Bool.or_eq_true, Bool.and_eq_true, decide_eq_true_eq, beq_iff_eq] at *
  omega

theorem lines_append {line : List Char} (h : ∀ c ∈ line, isLineEnd c = false) (rest : List Char) :
    lines (line ++ '\n' :: rest) = line :: lines rest := by
  induction line with
  | nil => simp [lines, show isLineEnd '\n' = true from rfl]
  | cons c cs ih =>
    rw [List.forall_mem_cons] at h
    have hr : c ≠ '\r' := by
      rintro rfl
      exact absurd h.1 (by decide)
    rw [List.cons_append, lines, ih h.2]
    · simp [h.1]
    · rintro cs' rfl
      exact absurd rfl hr

theorem lines_single {line : List Char} (h : ∀ c ∈ line, isLineEnd c = false) (hne : line ≠ []) :
    lines line = [line] := by
  induction line with
  | nil => exact absurd rfl hne
  | cons c cs ih =>
    rw [List.forall_mem_cons] at h
    have hr : c ≠ '\r' := by
      rintro rfl
      exact absurd h.1 (by decide)
    cases cs with
    | nil => simp [lines, h.1]
    | cons d ds =>
      rw [lines, ih h.2 (by simp)]
      · simp [h.1]
      · rintro cs' rfl
        exact absurd rfl hr

theorem collapseFrom_word {word : List Char} (hne : word ≠ []) (hw : ∀ c ∈ word, isBlank c = false) (after : Bool)
    (rest : List Char) : collapseFrom after (word ++ rest) = word ++ collapseFrom false rest := by
  induction word generalizing after with
  | nil => exact absurd rfl hne
  | cons c cs ih =>
    rw [List.forall_mem_cons] at hw
    rw [List.cons_append, collapseFrom, if_neg (by simp [hw.1])]
    cases cs with
    | nil => rfl
    | cons d ds => rw [ih (by simp) hw.2, List.cons_append, List.cons_append, List.cons_append]

theorem collapseFrom_space (rest : List Char) : collapseFrom false (' ' :: rest) = ' ' :: collapseFrom true rest := by
  simp [collapseFrom, show isBlank ' ' = true from rfl]

/-- Only what stands behind is trimmed off a text whose ends are not of the class. -/
theorem trimWhile_append {among : Char → Bool} {cs padding : List Char} {c d : Char} (hc : cs.head? = some c)
    (hd : cs.getLast? = some d) (hca : among c = false) (hda : among d = false)
    (hpadding : ∀ e ∈ padding, among e = true) : trimWhile among (cs ++ padding) = cs := by
  obtain ⟨rest, rfl⟩ := List.head?_eq_some_iff.mp hc
  obtain ⟨front, hf⟩ := List.getLast?_eq_some_iff.mp hd
  have hback : (padding.reverse ++ (front ++ [d]).reverse).dropWhile among = (front ++ [d]).reverse := by
    rw [List.dropWhile_append_of_pos (by simpa using hpadding), List.reverse_append, List.reverse_singleton,
      List.singleton_append, List.dropWhile_cons_of_neg (by simp [hda])]
  rw [trimWhile, List.cons_append, List.dropWhile_cons_of_neg (by simp [hca]), ← List.cons_append, hf,
    List.reverse_append, hback, List.reverse_reverse]

theorem breakAt?_space {word : List Char} (h : ∀ c ∈ word, c ≠ ' ') (rest : List Char) :
    breakAt? [' '] (word ++ ' ' :: rest) = some (word, rest) := by
  induction word with
  | nil => simp [breakAt?]
  | cons c cs ih =>
    rw [List.forall_mem_cons] at h
    have hp : [' '].isPrefixOf (c :: (cs ++ ' ' :: rest)) = false := by
      simpa [List.isPrefixOf] using Ne.symm h.1
    rw [List.cons_append, breakAt?, hp, ih h.2]
    rfl

theorem breakAt?_none {word : List Char} (h : ∀ c ∈ word, c ≠ ' ') : breakAt? [' '] word = none := by
  induction word with
  | nil => rfl
  | cons c cs ih =>
    rw [List.forall_mem_cons] at h
    have hp : [' '].isPrefixOf (c :: cs) = false := by
      simpa [List.isPrefixOf] using Ne.symm h.1
    rw [breakAt?, hp, ih h.2]
    rfl

/-- Words with one space between them. -/
def spaced : List (List Char) → List Char
  | [] => []
  | [word] => word
  | word :: next :: rest => word ++ ' ' :: spaced (next :: rest)

/-- A word as a list of characters. -/
def IsWordChars (word : List Char) : Prop :=
  word ≠ [] ∧ ∀ c ∈ word, isBlank c = false ∧ c ≠ ';'

theorem forall_mem_spaced {P : Char → Prop} {words : List (List Char)} (h : ∀ word ∈ words, ∀ c ∈ word, P c)
    (hs : P ' ') : ∀ c ∈ spaced words, P c := by
  fun_induction spaced words with
  | case1 => simp
  | case2 word => exact h word (by simp)
  | case3 word next rest ih =>
    rw [List.forall_mem_cons] at h
    exact List.forall_mem_append.mpr ⟨h.1, List.forall_mem_cons.mpr ⟨hs, ih h.2⟩⟩

section

variable {words : List (List Char)} (h : ∀ word ∈ words, IsWordChars word)
include h

theorem collapseFrom_spaced (after : Bool) : collapseFrom after (spaced words) = spaced words := by
  fun_induction spaced words generalizing after with
  | case1 => rfl
  | case2 word =>
    obtain ⟨hne, hw⟩ := h word (by simp)
    have hc := collapseFrom_word hne (fun c hc => (hw c hc).1) after []
    simpa [collapseFrom] using hc
  | case3 word next rest ih =>
    rw [List.forall_mem_cons] at h
    rw [collapseFrom_word h.1.1 (fun c hc => (h.1.2 c hc).1), collapseFrom_space, ih h.2]

theorem spaced_ends (hne : words ≠ []) :
    (∃ c, (spaced words).head? = some c ∧ isBlank c = false) ∧
      ∃ d, (spaced words).getLast? = some d ∧ isBlank d = false := by
  fun_induction spaced words with
  | case1 => exact absurd rfl hne
  | case2 word =>
    obtain ⟨hw, hb⟩ := h word (by simp)
    exact ⟨⟨word.head hw, List.head?_eq_some_head hw, (hb _ (List.head_mem hw)).1⟩,
      word.getLast hw, List.getLast?_eq_some_getLast hw, (hb _ (List.getLast_mem hw)).1⟩
  | case3 word next rest ih =>
    rw [List.forall_mem_cons] at h
    obtain ⟨hw, hb⟩ := h.1
    obtain ⟨_, d, hd, hdb⟩ := ih h.2 (by simp)
    refine ⟨⟨word.head hw, ?_, (hb _ (List.head_mem hw)).1⟩, d, ?_, hdb⟩
    · rw [List.head?_append, List.head?_eq_some_head hw]
      rfl
    · rw [List.getLast?_append, List.getLast?_cons, hd]
      rfl

end

theorem IsWordChars.no_space {word : List Char} (h : IsWordChars word) : ∀ c ∈ word, c ≠ ' ' := by
  rintro c hc rfl
  exact absurd (h.2 _ hc).1 (by decide)

/-- Cutting at the spaces, with no fewer cuts than there are spaces, gives the words back. -/
theorem splitAtMost_spaced {words : List (List Char)} (h : ∀ word ∈ words, IsWordChars word) (hne : words ≠ [])
    {cuts : Nat} (hcuts : words.length ≤ cuts + 1) : splitAtMost [' '] cuts (spaced words) = words := by
  fun_induction spaced words generalizing cuts with
  | case1 => exact absurd rfl hne
  | case2 word =>
    cases cuts with
    | zero => rfl
    | succ cuts => simp only [splitAtMost, breakAt?_none (h word (by simp)).no_space]
  | case3 word next rest ih =>
    rw [List.forall_mem_cons] at h
    cases cuts with
    | zero => simp at hcuts
    | succ cuts =>
      simp only [splitAtMost, breakAt?_space h.1.no_space, ih h.2 (by simp) (by simpa using hcuts)]

end Text

open Text

/-- Words with one space between them, and perhaps spaces behind, are a plain line. -/
theorem plainLine_spaced {words : List (List Char)} (h : ∀ word ∈ words, IsWordChars word) (hne : words ≠ [])
    {padding : List Char} (hpadding : ∀ c ∈ padding, c = ' ') :
    plainLine (spaced words ++ padding) = spaced words := by
  obtain ⟨⟨c, hc, hcb⟩, d, hd, hdb⟩ := spaced_ends h hne
  have htake : (spaced words ++ padding).takeWhile (· != ';') = spaced words ++ padding := by
    refine List.takeWhile_eq_self_iff.mpr (List.forall_mem_append.mpr ⟨?_, ?_⟩)
    · exact forall_mem_spaced (fun word hw c hc => by simpa using ((h word hw).2 c hc).2) (by decide)
    · exact fun c hc => by rw [hpadding c hc]; rfl
  have htrim : trim (spaced words ++ padding) = spaced words :=
    trimWhile_append hc hd hcb hdb fun e he => by rw [hpadding e he]; rfl
  have hagain : trim (spaced words) = spaced words := by
    simpa [trim] using @trimWhile_append _ _ [] _ _ hc hd hcb hdb (by simp)
  rw [plainLine, htake, htrim, collapse, collapseFrom_spaced h, hagain]

/-- A line yields an item if it builds it whatever was built before, but for a label of the same
name. -/
structure Yields (line : String) (item : Built) : Prop where
  isLine : IsLine line
  written : plainLine line.toList ≠ []
  built : ∀ a : Assembly, (∀ name, item = .label name → name ∉ a.labels.map Prod.fst) →
    a.built Standard.commands (plainLine line.toList) = .ok item

/-- Words with one space between them are the pieces of the arguments of a command that has a parameter
for each. -/
private theorem pieces_spaced {c : Command} {args : List String} (hs : c.separator = " ")
    (ha : ∀ arg ∈ args, IsWord arg) (hne : args ≠ []) (hargs : args.length ≤ c.params.length) :
    c.pieces (String.ofList (spaced (args.map String.toList))) = .ok args := by
  have hwords : ∀ word ∈ args.map String.toList, IsWordChars word := List.forall_mem_map.mpr ha
  have hne' : args.map String.toList ≠ [] := by simpa using hne
  have he : (String.ofList (spaced (args.map String.toList))).isEmpty = false := by
    obtain ⟨⟨d, hd, _⟩, _⟩ := spaced_ends hwords hne'
    rw [String.isEmpty_eq_false_iff]
    intro h0
    rw [String.ofList_eq_empty_iff] at h0
    simp [h0] at hd
  have hcuts : (args.map String.toList).length ≤ c.params.length - 1 + 1 := by
    rw [List.length_map]
    omega
  have hsplit := splitAtMost_spaced hwords hne' hcuts
  simp [Command.pieces, he, hs, hsplit, Function.comp_def]

/-- A line of single words yields what its command builds from the values it takes the others for. -/
theorem yields_spaced {line word : String} {args : List String} {padding : List Char} {command : Command}
    {values : List Value} {item : Built}
    (hl : line.toList = spaced (word.toList :: args.map String.toList) ++ padding)
    (hpadding : ∀ c ∈ padding, c = ' ') (hw : IsWord word) (ha : ∀ arg ∈ args, IsWord arg) (hne : args ≠ [])
    (hf : findCommand? Standard.commands word = some command) (hs : command.separator = " ")
    (hargs : args.length ≤ command.params.length)
    (hbind : ∀ text, command.pieces text = .ok args → command.bind text = .ok values)
    (hbuild : ∀ size labels, (∀ name, item = .label name → name ∉ labels.map Prod.fst) →
      command.build size labels values = .ok item) : Yields line item := by
  obtain ⟨arg, rest, rfl⟩ := List.exists_cons_of_ne_nil hne
  have hwords : ∀ w ∈ word.toList :: (arg :: rest).map String.toList, IsWordChars w :=
    List.forall_mem_cons.mpr ⟨hw, List.forall_mem_map.mpr ha⟩
  have hone : IsLine line := by
    rw [IsLine, hl]
    refine List.forall_mem_append.mpr ⟨forall_mem_spaced (fun w hw c hc => ?_) (by decide), fun c hc => ?_⟩
    · by_contra he
      have hb := isBlank_of_isLineEnd (by simpa using he)
      simp [((hwords w hw).2 c hc).1] at hb
    · rw [hpadding c hc]
      rfl
  have hp : plainLine line.toList = word.toList ++ ' ' :: spaced ((arg :: rest).map String.toList) := by
    rw [hl]
    exact plainLine_spaced hwords (by simp) hpadding
  have hsplit : wordAndArgs (word.toList ++ ' ' :: spaced ((arg :: rest).map String.toList)) =
      (word, String.ofList (spaced ((arg :: rest).map String.toList))) := by
    simp only [wordAndArgs, breakAt?_space (IsWordChars.no_space hw), String.ofList_toList]
  refine ⟨hone, by simp [hp], fun a hlabel => ?_⟩
  have hv := hbind _ (pieces_spaced hs ha hne hargs)
  have hrun (size : Nat) (labels : Labels) :
      command.run size labels (String.ofList (spaced ((arg :: rest).map String.toList))) =
        command.build size labels values := by
    rw [Command.run, hv]
    rfl
  simp only [hp, Assembly.built, hsplit, hf, hrun, hbuild _ _ hlabel]

theorem yields_label {label : String} (h : IsWord label) : Yields ("label " ++ label) (.label label) := by
  refine @yields_spaced _ "label" [label] [] Standard.label [.text label] _ (by simp [spaced]) (by simp) (by decide)
    (List.forall_mem_singleton.mpr h) (by simp) rfl rfl (Nat.le_refl _) (fun _ h => by rw [Command.bind, h]; rfl)
    fun size labels hl => ?_
  have hany : (labels.any fun p => p.1 = label) = false := by
    simp only [List.any_eq_false, decide_eq_true_eq]
    rintro p hp rfl
    exact hl _ rfl (List.mem_map_of_mem hp)
  simp [Standard.label, hany]

theorem yields_call {name : String} (h : IsWord name) :
    Yields ("call " ++ name) (.instruction (.call Operand.absent Instruction.unlinked (.named name))) :=
  @yields_spaced _ "call" [name] [] Standard.call [.text name] _ (by simp [spaced]) (by simp) (by decide)
    (List.forall_mem_singleton.mpr h) (by simp) rfl rfl (Nat.le_refl _) (fun _ h => by rw [Command.bind, h]; rfl)
    fun _ _ _ => rfl

theorem yields_jump {label count : String} (hl : IsWord label) (hc : IsWord count) :
    Yields ("jump " ++ label ++ " " ++ count)
      (.instruction (.jump (Operand.read count) Instruction.unlinked (.named label))) :=
  @yields_spaced _ "jump" [label, count] [] Standard.jump [.text label, .operand (Operand.read count)] _
    (by simp [spaced]) (by simp) (by decide) (List.forall_mem_cons.mpr ⟨hl, List.forall_mem_singleton.mpr hc⟩)
    (by simp) rfl rfl (Nat.le_refl _) (fun _ h => by rw [Command.bind, h]; rfl) fun _ _ _ => rfl

theorem yields_end : Yields "end" (.instruction .finish) :=
  ⟨by decide, by decide, fun _ _ => rfl⟩

theorem yields_return : Yields "return" (.instruction .ret) :=
  ⟨by decide, by decide, fun _ _ => rfl⟩

/-- The command of a word that steers nothing builds a plain instruction from its values alone. -/
private theorem action_build {word : String} {c : Command} (hw : word ∈ actionWords)
    (hf : findCommand? Standard.commands word = some c) :
    (∀ size labels size' labels' values, c.build size labels values = c.build size' labels' values) ∧
      ∀ {size labels values item}, c.build size labels values = .ok item →
        ∃ inst, item = .instruction inst ∧ inst.isPlain = true := by
  have hassign (target : String) (left right : Operand) (sign : MathSign) :
      (Standard.assignment target left right sign).isPlain = true := by
    cases sign <;> rfl
  simp only [actionWords, List.mem_cons, List.not_mem_nil, or_false] at hw
  rcases hw with rfl | rfl | rfl | rfl | rfl | rfl | rfl | rfl | rfl | rfl | rfl | rfl
  all_goals
    obtain rfl := Option.some.inj hf
    refine ⟨fun _ _ _ _ _ => rfl, fun {size labels values item} h => ?_⟩
    simp only [Standard.move, Standard.moveRel, Standard.click, Standard.wait, Standard.doubleClick,
      Standard.print, Standard.center, Standard.goBack, Standard.setOffset, Standard.clearOffset,
      Standard.printVar, Standard.var, Standard.plain, Standard.buildMovement, Standard.buildAssignment,
      Standard.misfit] at h
    repeat' split at h
  all_goals
    simp only [Except.ok.injEq, reduceCtorEq] at h
  all_goals
    subst h
    exact ⟨_, rfl, by first | rfl | exact hassign _ _ _ _⟩

/-- The instruction of a line with a command. -/
@[irreducible]
def instructionOf (line : String) : Instruction :=
  match ({} : Assembly).built Standard.commands (plainLine line.toList) with
  | .ok (.instruction inst) => inst
  | _ => .halt

theorem IsAction.written {line : String} (h : IsAction line) : plainLine line.toList ≠ [] := by
  intro h0
  have hw := h.2
  rw [h0] at hw
  exact absurd hw (by decide)

/-- A line with a command that steers nothing either never builds, or it yields a plain instruction. -/
theorem yields_action {line : String} (h : IsAction line) {a : Assembly} {item : Built}
    (hb : a.built Standard.commands (plainLine line.toList) = .ok item) :
    Yields line (.instruction (instructionOf line)) ∧ (instructionOf line).isPlain = true := by
  obtain ⟨command, values, hf, hv, hbuild⟩ := Assembly.built_eq_ok.mp hb
  obtain ⟨hsame, hplain⟩ := action_build h.2 hf
  obtain ⟨inst, rfl, hp⟩ := hplain hbuild
  have hbuilt (b : Assembly) : b.built Standard.commands (plainLine line.toList) = .ok (.instruction inst) :=
    Assembly.built_eq_ok.mpr ⟨command, values, hf, hv, (hsame _ _ _ _ values).trans hbuild⟩
  have hi : instructionOf line = inst := by simp only [instructionOf, hbuilt]
  rw [hi]
  exact ⟨⟨h.1, h.written, fun b _ => hbuilt b⟩, hp⟩

theorem label?_plain {inst : Instruction} (h : inst.isPlain = true) : inst.label? = none := by
  cases inst <;> first | rfl | simp [Instruction.isPlain] at h

theorem resolve_plain (labels : Labels) {inst : Instruction} (h : inst.isPlain = true) :
    labels.resolve inst = inst := by
  rw [Labels.resolve, label?_plain h]
  rfl

/-- Lines that yield items with labels of different names build these items. -/
theorem build_yields {lines : List String} {items : List Built} (h : List.Forall₂ Yields lines items)
    (a : Assembly) (hn : (a.labels.map Prod.fst ++ namesOf items).Nodup) (number : Nat) :
    Assembly.build Standard.commands a number (lines.map String.toList) = (a.addAll items, none) := by
  induction h generalizing a number with
  | nil => rfl
  | @cons line item lines items hy _ ih =>
    obtain ⟨c, cs, hp⟩ := List.exists_cons_of_ne_nil hy.written
    have hnames : namesOf (item :: items) = item.label?.toList ++ namesOf items := by
      cases item <;> rfl
    rw [hnames, ← List.append_assoc] at hn
    -- A label is new, for it would stand twice among the names.
    have hb := hy.built a fun name hi hm => by
      subst hi
      exact (List.nodup_append.mp (List.nodup_append.mp hn).1).2.2 name hm name (by simp [Built.label?]) rfl
    rw [hp] at hb
    rw [List.map_cons, Assembly.build]
    simp only [hp, hb]
    rw [← Assembly.add_names] at hn
    exact ih (a.add item) hn (number + 1)

/-- A line with a command that can be built. -/
def Builds (line : String) : Prop :=
  Yields line (.instruction (instructionOf line)) ∧ (instructionOf line).isPlain = true

namespace Block

def items : Block → List Built
  | done => []
  | command line rest => .instruction (instructionOf line) :: rest.items
  | loop label count _ body rest =>
    .label label :: (body.items ++
      .instruction (.jump (Operand.read count) Instruction.unlinked (.named label)) :: rest.items)
  | call name rest =>
    .instruction (.call Operand.absent Instruction.unlinked (.named name)) :: rest.items

theorem names_items (block : Block) : namesOf block.items = block.labels := by
  induction block with
  | done => rfl
  | command line rest ih => exact ih
  | loop label count times body rest ihb ihr =>
    rw [labels, ← ihb, ← ihr]
    simp [items]
  | call name rest ih => exact ih

theorem yields_items {block : Block} (hf : block.Formed) (hb : ∀ line ∈ block.commands, Builds line) :
    List.Forall₂ Yields block.lines block.items := by
  induction block with
  | done => exact .nil
  | command line rest ih =>
    rw [commands, List.forall_mem_cons] at hb
    exact .cons hb.1.1 (ih hf.2 hb.2)
  | loop label count times body rest ihb ihr =>
    rw [commands, List.forall_mem_append] at hb
    obtain ⟨⟨hl, hc, _⟩, hbody, hrest⟩ := hf
    exact .cons (yields_label hl) (List.rel_append (ihb hbody hb.1) (.cons (yields_jump hl hc) (ihr hrest hb.2)))
  | call name rest ih => exact .cons (yields_call hf.1) (ih hf.2 hb)

theorem Formed.isLine {block : Block} (h : block.Formed) : ∀ line ∈ block.lines, IsLine line := by
  induction block with
  | done => simp [lines]
  | command line rest ih => exact List.forall_mem_cons.mpr ⟨h.1.1, ih h.2⟩
  | loop label count times body rest ihb ihr =>
    obtain ⟨⟨hl, hc, _⟩, hbody, hrest⟩ := h
    exact List.forall_mem_cons.mpr ⟨(yields_label hl).isLine, List.forall_mem_append.mpr ⟨ihb hbody,
      List.forall_mem_cons.mpr ⟨(yields_jump hl hc).isLine, ihr hrest⟩⟩⟩
  | call name rest ih => exact List.forall_mem_cons.mpr ⟨(yields_call h.1).isLine, ih h.2⟩

/-- The lines of a block that are commands. -/
theorem commands_subset (block : Block) : block.commands ⊆ block.lines := by
  induction block with
  | done => exact List.Subset.refl _
  | command line rest ih => exact List.cons_subset_cons line ih
  | loop label count times body rest ihb ihr =>
    refine List.append_subset.mpr ⟨fun line hl => ?_, fun line hl => ?_⟩
    · exact List.mem_cons_of_mem _ (List.mem_append_left _ (ihb hl))
    · exact List.mem_cons_of_mem _ (List.mem_append_right _ (List.mem_cons_of_mem _ (ihr hl)))
  | call name rest ih => exact fun line hl => List.mem_cons_of_mem _ (ih hl)

end Block

theorem lines_source {lines : List String} (h : ∀ line ∈ lines, IsLine line) :
    Text.lines (String.join (lines.map fun line => line ++ "\n")).toList = lines.map String.toList := by
  induction lines with
  | nil => rfl
  | cons line rest ih =>
    rw [List.forall_mem_cons] at h
    have hs : (String.join ((line :: rest).map fun line => line ++ "\n")).toList =
        line.toList ++ '\n' :: (String.join (rest.map fun line => line ++ "\n")).toList := by
      simp
    rw [hs, lines_append h.1, ih h.2, List.map_cons]

/-- In lines that build, every line that is not empty builds an item. -/
theorem built_of_build {a a' : Assembly} {number : Nat} {lines : List (List Char)}
    (h : Assembly.build Standard.commands a number lines = (a', none)) {raw : List Char} (hm : raw ∈ lines)
    (hne : plainLine raw ≠ []) : ∃ b item, Assembly.built Standard.commands b (plainLine raw) = .ok item := by
  induction lines generalizing a number with
  | nil => simp at hm
  | cons first rest ih =>
    rw [Assembly.build] at h
    split at h
    · rename_i hp
      rcases List.mem_cons.mp hm with rfl | hm
      · exact absurd hp hne
      · exact ih h hm
    · split at h
      · rename_i item hb
        rcases List.mem_cons.mp hm with rfl | hm
        · exact ⟨a, item, hb⟩
        · exact ih h hm
      · simp at h

theorem isLine_of_yields {lines : List String} {items : List Built} (h : List.Forall₂ Yields lines items) :
    ∀ line ∈ lines, IsLine line := by
  induction h with
  | nil => simp
  | cons hy _ ih => exact List.forall_mem_cons.mpr ⟨hy.isLine, ih⟩

theorem written_of_yields {lines : List String} {items : List Built} (h : List.Forall₂ Yields lines items) :
    ∀ inst ∈ codeOf items, inst.isWritten = true := by
  induction h with
  | nil => simp
  | @cons line item lines items hy _ ih =>
    cases item with
    | instruction inst =>
      have hb := hy.built {} (by simp)
      exact List.forall_mem_cons.mpr ⟨Assembly.built_written hb, ih⟩
    | label name => exact ih
    | nothing => exact ih

namespace Script

def items (s : Script) : List Built :=
  s.main.items ++ .instruction .finish ::
    s.functions.flatMap fun f => .label f.1 :: (f.2.items ++ [.instruction .ret])

theorem names_items (s : Script) : namesOf s.items = s.labels := by
  have hf (functions : List (String × Block)) :
      namesOf (functions.flatMap fun f => .label f.1 :: (f.2.items ++ [.instruction .ret])) =
        functions.flatMap fun f => f.1 :: f.2.labels := by
    induction functions with
    | nil => rfl
    | cons f rest ih => simp [ih, Block.names_items]
  simp [items, labels, hf, Block.names_items]

/-- All commands of a script can be built. -/
def CommandsBuild (s : Script) : Prop :=
  ∀ block ∈ s.blocks, ∀ line ∈ block.commands, Builds line

variable {s : Script}

theorem mem_lines {block : Block} (hb : block ∈ s.blocks) {line : String} (hl : line ∈ block.lines) :
    line ∈ s.lines := by
  rcases List.mem_cons.mp hb with rfl | hb
  · exact List.mem_append_left _ hl
  · obtain ⟨f, hf, rfl⟩ := List.mem_map.mp hb
    refine List.mem_append_right _ (List.mem_cons_of_mem _ (List.mem_flatMap.mpr ⟨f, hf, ?_⟩))
    exact List.mem_cons_of_mem _ (List.mem_append_left _ hl)

theorem Structured.yields_items (h : s.Structured) (hb : s.CommandsBuild) : List.Forall₂ Yields s.lines s.items := by
  have hblock {block : Block} (hm : block ∈ s.blocks) := Block.yields_items (h.formed block hm) (hb block hm)
  have hfun (functions : List (String × Block)) (hm : functions ⊆ s.functions) :
      List.Forall₂ Yields (functions.flatMap fun f => ("label " ++ f.1) :: (f.2.lines ++ ["return"]))
        (functions.flatMap fun f => .label f.1 :: (f.2.items ++ [.instruction .ret])) := by
    induction functions with
    | nil => exact .nil
    | cons f rest ih =>
      rw [List.cons_subset] at hm
      have hf : f.2 ∈ s.blocks := List.mem_cons_of_mem _ (List.mem_map_of_mem hm.1)
      simp only [List.flatMap_cons]
      refine List.rel_append (.cons (yields_label (h.names f hm.1)) ?_) (ih hm.2)
      exact List.rel_append (hblock hf) (.cons yields_return .nil)
  exact List.rel_append (hblock (by simp [blocks])) (.cons yields_end (hfun s.functions (List.Subset.refl _)))

theorem Structured.isLine (h : s.Structured) : ∀ line ∈ s.lines, IsLine line := by
  refine List.forall_mem_append.mpr ⟨(h.formed s.main (by simp [blocks])).isLine,
    List.forall_mem_cons.mpr ⟨yields_end.isLine, ?_⟩⟩
  rw [List.forall_mem_flatMap]
  intro f hf
  refine List.forall_mem_cons.mpr ⟨(yields_label (h.names f hf)).isLine, List.forall_mem_append.mpr ⟨?_, ?_⟩⟩
  · exact (h.formed f.2 (List.mem_cons_of_mem _ (List.mem_map_of_mem hf))).isLine
  · exact List.forall_mem_singleton.mpr yields_return.isLine

/-- A structured script whose commands can be built writes its items. -/
theorem Structured.writes (h : s.Structured) (hb : s.CommandsBuild) : Writes s.source s.items := by
  have hy := h.yields_items hb
  refine ⟨written_of_yields hy, fun a number ha => ?_⟩
  rw [source, lines_source h.isLine]
  exact build_yields hy a (by simpa [ha, names_items] using h.distinct) number

/-- If a structured script compiles, all its commands can be built. -/
theorem Structured.commandsBuild (h : s.Structured) {safe : Bool} {program : Array Instruction}
    (hc : (compile safe s.source).1 = .program program) : s.CommandsBuild := by
  obtain ⟨items, hw, _⟩ := compile_eq_program.mp hc
  have hbuild := hw.2 {} 0 rfl
  rw [source, lines_source h.isLine] at hbuild
  intro block hm line hl
  have haction := h.isAction block hm line hl
  have hne : plainLine line.toList ≠ [] := haction.written
  have hmem : line ∈ s.lines := mem_lines hm (block.commands_subset hl)
  obtain ⟨a, item, hb⟩ := built_of_build hbuild (List.mem_map_of_mem hmem) hne
  exact yields_action haction hb

end Script

end PointerScript
