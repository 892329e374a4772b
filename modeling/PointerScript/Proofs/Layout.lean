import PointerScript.Proofs.NeatText

/-! Layout and comments. The plain form of a line is made of its words before the comment, with single spaces between
them, so it does not tell how they were laid out. A compiler reads nothing but plain forms: source texts whose lines
have the same words become the same program. -/

namespace PointerScript

namespace Text

/-- The words of a text: what stands between its blanks. -/
def words (cs : List Char) : List (List Char) :=
  (cs.splitOnP isBlank).filter fun word => !word.isEmpty

theorem spaced_eq_intercalate (words : List (List Char)) : spaced words = [' '].intercalate words := by
  fun_induction spaced words with
  | case1 => rfl
  | case2 word => simp
  | case3 word next rest ih => simp [ih, List.intercalate_cons_cons]

/-- A blank ends the words before it. -/
theorem words_append_cons {b : Char} (hb : isBlank b = true) (cs rest : List Char) :
    words (cs ++ b :: rest) = words cs ++ words rest := by
  rw [words, List.splitOnP_append_cons _ _ hb, List.filter_append]
  rfl

theorem words_cons {b : Char} (hb : isBlank b = true) (cs : List Char) : words (b :: cs) = words cs :=
  words_append_cons hb [] cs

theorem words_singleton {c : Char} (hc : isBlank c = false) : words [c] = [[c]] := by
  simp [words, List.splitOnP_cons_eq_if_modifyHead, hc]

/-- A character that is no blank goes before the word that follows at once. -/
theorem words_cons_cons {c d : Char} (hc : isBlank c = false) (hd : isBlank d = false) (cs : List Char) :
    ∃ first rest, words (d :: cs) = first :: rest ∧ words (c :: d :: cs) = (c :: first) :: rest := by
  obtain ⟨first, rest, hsplit⟩ := List.exists_cons_of_ne_nil (List.splitOnP_ne_nil isBlank cs)
  refine ⟨d :: first, rest.filter fun word => !word.isEmpty, ?_, ?_⟩ <;>
    simp [words, List.splitOnP_cons_eq_if_modifyHead, hc, hd, hsplit]

theorem words_ne_nil {cs : List Char} {c : Char} (hc : c ∈ cs) (hb : isBlank c = false) : words cs ≠ [] := by
  induction cs with
  | nil => simp at hc
  | cons d ds ih =>
    by_cases hd : isBlank d = true
    · rw [words_cons hd]
      rcases List.mem_cons.mp hc with rfl | hc
      · simp [hd] at hb
      · exact ih hc
    · obtain ⟨first, rest, hsplit⟩ := List.exists_cons_of_ne_nil (List.splitOnP_ne_nil isBlank ds)
      simp [words, List.splitOnP_cons_eq_if_modifyHead, hd, hsplit]

/-- Words are not empty and hold no blanks. -/
theorem unblank_of_mem_words {cs word : List Char} (h : word ∈ words cs) :
    word ≠ [] ∧ ∀ c ∈ word, isBlank c = false := by
  obtain ⟨hmem, hne⟩ := List.mem_filter.mp h
  refine ⟨by simpa using hne, fun c hc => ?_⟩
  clear h hne
  induction cs generalizing word with
  | nil =>
    obtain rfl : word = [] := by simpa using hmem
    simp at hc
  | cons d ds ih =>
    obtain ⟨first, rest, hsplit⟩ := List.exists_cons_of_ne_nil (List.splitOnP_ne_nil isBlank ds)
    rw [List.splitOnP_cons_eq_if_modifyHead, hsplit] at hmem
    rw [hsplit] at ih
    split at hmem
    · rcases List.mem_cons.mp hmem with rfl | hmem
      · simp at hc
      · exact ih hmem hc
    · rename_i hd
      rcases List.mem_cons.mp hmem with rfl | hmem
      · rcases List.mem_cons.mp hc with rfl | hc
        · simpa using hd
        · exact ih List.mem_cons_self hc
      · exact ih (List.mem_cons_of_mem _ hmem) hc

theorem words_trim (cs : List Char) : words (trim cs) = words cs := by
  have hfront (ds : List Char) : words (ds.dropWhile isBlank) = words ds := by
    induction ds with
    | nil => rfl
    | cons d ds ih =>
      by_cases hd : isBlank d = true
      · rw [List.dropWhile_cons_of_pos hd, ih, words_cons hd]
      · rw [List.dropWhile_cons_of_neg hd]
  have hback (ds : List Char) : words (ds.dropWhile isBlank).reverse = words ds.reverse := by
    induction ds with
    | nil => rfl
    | cons d ds ih =>
      by_cases hd : isBlank d = true
      · rw [List.dropWhile_cons_of_pos hd, ih, List.reverse_cons, words_append_cons hd]
        exact (List.append_nil _).symm
      · rw [List.dropWhile_cons_of_neg hd]
  rw [trim, trimWhile, hback, List.reverse_reverse, hfront]

/-- Behind a blank, collapsing a text that does not end with a blank leaves its words with single spaces between
them. -/
theorem collapseFrom_eq_words {cs : List Char} (h : ∀ c, cs.getLast? = some c → isBlank c = false) :
    collapseFrom true cs = spaced (words cs) := by
  induction cs with
  | nil => rfl
  | cons c cs ih =>
    cases cs with
    | nil =>
      have hc : isBlank c = false := h c rfl
      rw [words_singleton hc]
      simp [collapseFrom, hc, spaced]
    | cons d ds =>
      rw [List.getLast?_cons_cons] at h
      have ih := ih h
      by_cases hc : isBlank c = true
      · rw [collapseFrom, if_pos hc, if_pos rfl, ih, words_cons hc]
      · have hc' : isBlank c = false := by simpa using hc
        rw [collapseFrom, if_neg hc]
        by_cases hd : isBlank d = true
        · -- The blank ends the word. Another word follows, because the text does not end with a blank.
          have hlast := List.getLast?_eq_some_getLast (List.cons_ne_nil d ds)
          have hmore := words_ne_nil (List.mem_of_getLast? hlast) (h _ hlast)
          have hsame : collapseFrom false (d :: ds) = ' ' :: collapseFrom true (d :: ds) := by
            simp [collapseFrom, hd]
          rw [words_cons hd] at ih hmore
          rw [hsame, ih, ← List.singleton_append (l := d :: ds), words_append_cons hd, words_singleton hc']
          obtain ⟨next, rest, hnext⟩ := List.exists_cons_of_ne_nil hmore
          rw [hnext]
          rfl
        · have hd' : isBlank d = false := by simpa using hd
          obtain ⟨first, rest, hds, hcds⟩ := words_cons_cons hc' hd' ds
          have hsame : collapseFrom false (d :: ds) = collapseFrom true (d :: ds) := by
            simp [collapseFrom, hd']
          rw [hsame, ih, hds, hcds]
          cases rest <;> rfl

end Text

open Text

/-- The plain form of a line: its words before the comment with single spaces between them. -/
theorem plainLine_eq_spaced (raw : List Char) : plainLine raw = spaced (words (raw.takeWhile (· != ';'))) := by
  have hneat := isNeat_collapse (trim_trim (raw.takeWhile (· != ';')))
  obtain ⟨hhead, hlast⟩ := trim_eq_self.mp (trim_trim (raw.takeWhile (· != ';')))
  rw [plainLine, hneat.1, ← words_trim, ← collapseFrom_eq_words hlast]
  generalize trim (raw.takeWhile (· != ';')) = cs at hhead
  cases cs with
  | nil => rfl
  | cons c cs => simp [collapse, collapseFrom, hhead c rfl]

theorem plainLine_plainLine (raw : List Char) : plainLine (plainLine raw) = plainLine raw := by
  by_cases hne : plainLine raw = []
  · rw [hne]
    rfl
  · have h := @plainLine_neat _ [] (isNeat_plainLine raw) hne (no_comment_plainLine raw) (by simp)
    rwa [List.append_nil] at h

/-- The command of words is the first, and its arguments are the others. -/
theorem wordAndArgs_spaced {first : List Char} (h : ∀ c ∈ first, isBlank c = false) (rest : List (List Char)) :
    wordAndArgs (spaced (first :: rest)) = (String.ofList first, String.ofList (spaced rest)) := by
  have hspace : ∀ c ∈ first, c ≠ ' ' := by
    rintro c hc rfl
    exact absurd (h _ hc) (by decide)
  cases rest with
  | nil => simp only [wordAndArgs, spaced, breakAt?_none hspace]
  | cons next rest => simp only [wordAndArgs, spaced, breakAt?_space hspace]

namespace Assembly

/-- Builds plain lines one after another, whatever their numbers. -/
def assemble (commands : List Command) (a : Assembly) : List (List Char) → Assembly × Option CompileFault
  | [] => (a, none)
  | line :: rest =>
    match a.built commands line with
    | .ok item => assemble commands (a.add item) rest
    | .error fault => (a, some fault)

/-- Lines build what their plain forms build; only the number of a line that fails depends on the blank ones. -/
theorem build_eq_assemble (commands : List Command) (a : Assembly) (number : Nat) (lines : List (List Char)) :
    (build commands a number lines).map id (Option.map Prod.snd) = assemble commands a (writtenLines lines) := by
  induction lines generalizing a number with
  | nil => rfl
  | cons raw rest ih =>
    by_cases hp : plainLine raw = []
    · rw [build, writtenLines_blank hp, hp]
      exact ih a (number + 1)
    · rw [build_cons hp, writtenLines_cons hp, assemble]
      cases a.built commands (plainLine raw) with
      | ok item => exact ih (a.add item) (number + 1)
      | error fault => rfl

end Assembly

/-- Whatever a compiler is configured to do, source texts with the same words in their lines become the same. -/
theorem Compiler.compile_congr (c : Compiler) {source other : String} (h : sourceLines source = sourceLines other) :
    (c.compile source).2 = (c.compile other).2 := by
  have hbuild := Assembly.build_eq_assemble c.commands { instructions := c.initial.toArray } 0
  have hsame := (hbuild (Text.lines source.toList)).trans
    ((congrArg _ h).trans (hbuild (Text.lines other.toList)).symm)
  unfold compile compileLines
  generalize Assembly.build c.commands { instructions := c.initial.toArray } 0 (Text.lines source.toList) = built
    at hsame ⊢
  generalize Assembly.build c.commands { instructions := c.initial.toArray } 0 (Text.lines other.toList) = built'
    at hsame ⊢
  obtain ⟨a, fault⟩ := built
  obtain ⟨b, fault'⟩ := built'
  obtain ⟨rfl, hfault⟩ : a = b ∧ fault.map Prod.snd = fault'.map Prod.snd := Prod.mk.inj hsame
  rcases fault with _ | found <;> rcases fault' with _ | found'
  · rfl
  · cases hfault
  · cases hfault
  · rfl

/-- Layout and comments never matter. The plain form of a line consists of the words before its first semicolon, with
single spaces between them, and is its own plain form. Unless it is empty, the command that is looked for is the first
of these words, which is never empty, and the arguments are the others. So source texts whose lines have the same plain
forms, the empty ones apart, become the same: both do not compile, or both become the same program. -/
theorem layout_is_immaterial (c : Compiler) :
    (∀ raw : List Char, let found := words (raw.takeWhile (· != ';'))
      plainLine raw = [' '].intercalate found ∧ plainLine (plainLine raw) = plainLine raw ∧
      (plainLine raw ≠ [] → ∃ first rest, found = first :: rest ∧ first ≠ [] ∧
        wordAndArgs (plainLine raw) = (String.ofList first, String.ofList ([' '].intercalate rest)))) ∧
    ∀ source other : String, sourceLines source = sourceLines other →
      (c.compile source).2 = (c.compile other).2 ∧ ∀ line ∈ sourceLines source, (wordAndArgs line).1 ≠ "" := by
  have hcommand (raw : List Char) (hne : plainLine raw ≠ []) :
      ∃ first rest, words (raw.takeWhile (· != ';')) = first :: rest ∧ first ≠ [] ∧
        wordAndArgs (plainLine raw) = (String.ofList first, String.ofList (spaced rest)) := by
    rw [plainLine_eq_spaced] at hne ⊢
    cases hw : words (raw.takeWhile (· != ';')) with
    | nil => simp [hw, spaced] at hne
    | cons first rest =>
      obtain ⟨hfirst, hblank⟩ := unblank_of_mem_words (hw ▸ List.mem_cons_self)
      exact ⟨first, rest, rfl, hfirst, wordAndArgs_spaced hblank rest⟩
  simp only [← spaced_eq_intercalate]
  refine ⟨fun raw => ⟨plainLine_eq_spaced raw, plainLine_plainLine raw, hcommand raw⟩, fun source other h => ?_⟩
  refine ⟨c.compile_congr h, fun line hline => ?_⟩
  obtain ⟨raw, _, rfl⟩ := List.mem_map.mp (List.mem_filter.mp hline).1
  obtain ⟨first, rest, _, hfirst, hword⟩ := hcommand raw (by simpa using (List.mem_filter.mp hline).2)
  rw [hword]
  simpa using hfirst

/-- A loop that is laid out in two ways: with tabs, wide blanks, comments and empty lines, and without. -/
theorem sprawling_loop_is_compiled_alike :
    let tidy := "label a\nmove 1 2\njump a 3"
    let sprawling := "; a loop\n\tlabel \u2003 a ; here\n\u3000move   1\t2 \u0085 ;;\njump a\u001f3"
    sourceLines sprawling = sourceLines tidy ∧ (compile false tidy).1 ≠ .failed ∧
      (compile false sprawling).1 = (compile false tidy).1 := by
  intro tidy sprawling
  have hlines : sourceLines sprawling = sourceLines tidy := by decide +kernel
  exact ⟨hlines, by decide +kernel, ((layout_is_immaterial (.standard false)).2 _ _ hlines).1⟩

end PointerScript
