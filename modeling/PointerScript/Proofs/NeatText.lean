import PointerScript.Proofs.SourceLines
import PointerScript.Proofs.Structured.Lines

/-! Neat texts, which is what the plain form of a line is: without blanks at the ends and with single spaces between
the words. A text that is neat and holds no comment is its own plain form. -/

namespace PointerScript

namespace Text

/-- A neat text has no blanks at its ends and single spaces between its words. -/
def IsNeat (cs : List Char) : Prop :=
  trim cs = cs ∧ collapse cs = cs

instance (cs : List Char) : Decidable (IsNeat cs) :=
  inferInstanceAs (Decidable (_ ∧ _))

private theorem dropWhile_eq_self {p : Char → Bool} {cs : List Char} :
    cs.dropWhile p = cs ↔ ∀ c, cs.head? = some c → p c = false := by
  cases cs with
  | nil => simp
  | cons c cs =>
    simp only [List.head?_cons, Option.some.injEq, forall_eq']
    constructor
    · intro h
      by_contra hc
      have hlength := (List.dropWhile_sublist (l := cs) p).length_le
      rw [List.dropWhile_cons_of_pos (by simpa using hc)] at h
      rw [h, List.length_cons] at hlength
      omega
    · intro hc
      rw [List.dropWhile_cons_of_neg (by simp [hc])]

/-- A text is trimmed if no blank stands at either end. -/
theorem trim_eq_self {cs : List Char} : trim cs = cs ↔
    (∀ c, cs.head? = some c → isBlank c = false) ∧ ∀ c, cs.getLast? = some c → isBlank c = false := by
  rw [← dropWhile_eq_self, ← List.head?_reverse, ← dropWhile_eq_self, trim, trimWhile]
  constructor
  · intro h
    have hback := (List.dropWhile_sublist (l := (cs.dropWhile isBlank).reverse) isBlank).length_le
    have hlength := congrArg List.length h
    rw [List.length_reverse] at hlength hback
    have hfront := (List.dropWhile_sublist (l := cs) isBlank).eq_of_length_le (by omega)
    rw [hfront] at h
    exact ⟨hfront, by rw [← List.reverse_inj, h, List.reverse_reverse]⟩
  · rintro ⟨hfront, hback⟩
    rw [hfront, hback, List.reverse_reverse]

theorem length_collapseFrom (after : Bool) (cs : List Char) : (collapseFrom after cs).length ≤ cs.length := by
  induction cs generalizing after with
  | nil => simp [collapseFrom]
  | cons c cs ih =>
    rw [collapseFrom]
    split
    · split
      · exact (ih true).trans (Nat.le_succ _)
      · exact Nat.succ_le_succ (ih true)
    · exact Nat.succ_le_succ (ih false)

/-- Behind a blank a text stays as it is if it is collapsed and does not go on with a blank. -/
theorem collapseFrom_eq_self {cs : List Char} :
    collapseFrom true cs = cs ↔ collapse cs = cs ∧ ∀ c, cs.head? = some c → isBlank c = false := by
  cases cs with
  | nil => simp [collapse, collapseFrom]
  | cons c cs =>
    simp only [collapse, collapseFrom, List.head?_cons, Option.some.injEq, forall_eq', if_true, Bool.false_eq_true,
      if_false]
    cases hc : isBlank c with
    | false => simp
    | true =>
      have hlength := length_collapseFrom true cs
      simp only [if_true, Bool.true_eq_false, and_false, iff_false]
      intro h
      rw [h, List.length_cons] at hlength
      omega

/-- A word and the text behind it are neat together if the text is not empty and neat itself. -/
theorem isNeat_append {word cs : List Char} (hw : IsWordChars word) :
    IsNeat (word ++ ' ' :: cs) ↔ cs ≠ [] ∧ IsNeat cs := by
  have hhead : ∀ c, (word ++ ' ' :: cs).head? = some c → isBlank c = false := by
    intro c hc
    rw [List.head?_append, List.head?_eq_some_head hw.1] at hc
    exact Option.some.inj hc ▸ (hw.2 _ (List.head_mem hw.1)).1
  have hlast : (∀ c, (word ++ ' ' :: cs).getLast? = some c → isBlank c = false) ↔
      cs ≠ [] ∧ ∀ c, cs.getLast? = some c → isBlank c = false := by
    rw [List.getLast?_append, List.getLast?_cons]
    cases cs with
    | nil => simp [show isBlank ' ' = true from rfl]
    | cons c cs => simp [List.getLast?_cons]
  have hcollapse : collapse (word ++ ' ' :: cs) = word ++ ' ' :: cs ↔ collapseFrom true cs = cs := by
    rw [collapse, collapseFrom_word hw.1 fun c hc => (hw.2 c hc).1]
    simp [collapseFrom, show isBlank ' ' = true from rfl]
  rw [IsNeat, IsNeat, trim_eq_self, trim_eq_self, hcollapse, collapseFrom_eq_self, hlast]
  tauto

theorem isNeat_spaced {words : List (List Char)} (h : ∀ word ∈ words, IsWordChars word) : IsNeat (spaced words) := by
  refine ⟨?_, collapseFrom_spaced h false⟩
  by_cases hne : words = []
  · subst hne
    rfl
  · obtain ⟨⟨c, hc, hcb⟩, d, hd, hdb⟩ := spaced_ends h hne
    rw [trim_eq_self, hc, hd]
    exact ⟨fun e he => Option.some.inj he ▸ hcb, fun e he => Option.some.inj he ▸ hdb⟩

theorem trim_trim (cs : List Char) : trim (trim cs) = trim cs := by
  have hfirst (ds : List Char) : ∀ c, (ds.dropWhile isBlank).head? = some c → isBlank c = false := by
    intro c hc
    have hnot := List.head?_dropWhile_not isBlank ds
    rw [hc] at hnot
    exact hnot
  rw [trim_eq_self]
  constructor
  · -- What is left after trimming at the end starts as the text did before.
    intro c hc
    obtain ⟨dropped, hd⟩ := List.dropWhile_suffix isBlank (l := (cs.dropWhile isBlank).reverse)
    apply hfirst cs
    rw [← List.reverse_reverse (cs.dropWhile isBlank), ← hd, List.reverse_append, List.head?_append]
    change (trim cs).head?.or _ = _
    rw [hc]
    rfl
  · intro c hc
    rw [trim, trimWhile, List.getLast?_reverse] at hc
    exact hfirst _ c hc

theorem collapseFrom_collapseFrom (after : Bool) (cs : List Char) :
    collapseFrom after (collapseFrom after cs) = collapseFrom after cs := by
  induction cs generalizing after with
  | nil => rfl
  | cons c cs ih =>
    cases hc : isBlank c with
    | false => simp [collapseFrom, hc, ih]
    | true => cases after <;> simp [collapseFrom, hc, ih, show isBlank ' ' = true from rfl]

theorem collapseFrom_concat {d : Char} (hd : isBlank d = false) (after : Bool) (cs : List Char) :
    collapseFrom after (cs ++ [d]) = collapseFrom after cs ++ [d] := by
  induction cs generalizing after with
  | nil => simp [collapseFrom, hd]
  | cons c cs ih =>
    simp only [List.cons_append, collapseFrom, ih]
    split
    · split <;> rfl
    · rfl

theorem mem_of_mem_trim {cs : List Char} {c : Char} (h : c ∈ trim cs) : c ∈ cs := by
  have hrev := (List.dropWhile_sublist _).subset (List.mem_reverse.mp h)
  exact (List.dropWhile_sublist _).subset (List.mem_reverse.mp hrev)

/-- The blanks that collapsing leaves are spaces. -/
theorem space_of_mem_collapseFrom {after : Bool} {cs : List Char} {c : Char}
    (h : c ∈ collapseFrom after cs) (hc : isBlank c = true) : c = ' ' := by
  induction cs generalizing after with
  | nil => simp [collapseFrom] at h
  | cons d ds ih =>
    rw [collapseFrom] at h
    split at h
    · split at h
      · exact ih h
      · exact (List.mem_cons.mp h).elim id ih
    · rename_i hd
      rcases List.mem_cons.mp h with rfl | hmem
      · exact absurd hc hd
      · exact ih hmem

theorem mem_of_mem_collapseFrom {after : Bool} {cs : List Char} {c : Char} (h : c ∈ collapseFrom after cs)
    (hc : c ≠ ' ') : c ∈ cs := by
  induction cs generalizing after with
  | nil => simp [collapseFrom] at h
  | cons first cs ih =>
    rw [collapseFrom] at h
    apply List.mem_cons.mpr
    split at h
    · split at h
      · exact .inr (ih h)
      · exact .inr (ih ((List.mem_cons.mp h).resolve_left hc))
    · exact (List.mem_cons.mp h).imp_right ih

/-- A line stands in the text and has no line end in it. -/
theorem mem_of_mem_lines {cs line : List Char} {c : Char} (h : line ∈ lines cs) (hc : c ∈ line) :
    c ∈ cs ∧ isLineEnd c = false := by
  fun_induction lines cs generalizing line with
  | case1 => simp at h
  | case2 cs ih =>
    rcases List.mem_cons.mp h with rfl | h
    · simp at hc
    · exact (ih h hc).imp_left fun hm => by simp [hm]
  | case3 first cs _ _ ih =>
    rcases List.mem_cons.mp h with rfl | h
    · simp at hc
    · exact (ih h hc).imp_left (List.mem_cons_of_mem _)
  | case4 first cs _ hend _ ih =>
    obtain rfl : line = [first] := by simpa using h
    obtain rfl : c = first := by simpa using hc
    exact ⟨List.mem_cons_self, by simpa using hend⟩
  | case5 first cs _ hend head rest hlines ih =>
    rcases List.mem_cons.mp h with rfl | h
    · rcases List.mem_cons.mp hc with rfl | hc
      · exact ⟨List.mem_cons_self, by simpa using hend⟩
      · exact (ih (by simp [hlines]) hc).imp_left (List.mem_cons_of_mem _)
    · exact (ih (by simp [hlines, h]) hc).imp_left (List.mem_cons_of_mem _)

/-- Collapsing a trimmed text makes it neat. -/
theorem isNeat_collapse {cs : List Char} (h : trim cs = cs) : IsNeat (collapse cs) := by
  obtain ⟨hhead, hlast⟩ := trim_eq_self.mp h
  refine ⟨trim_eq_self.mpr ⟨?_, ?_⟩, collapseFrom_collapseFrom false cs⟩
  · intro c hc
    cases cs with
    | nil => simp [collapse, collapseFrom] at hc
    | cons first rest =>
      have hf := hhead first rfl
      rw [collapse, collapseFrom, if_neg (by simp [hf])] at hc
      exact Option.some.inj hc ▸ hf
  · intro c hc
    rcases List.eq_nil_or_concat' cs with rfl | ⟨front, last, rfl⟩
    · simp [collapse, collapseFrom] at hc
    · have hl := hlast last (by simp)
      rw [collapse, collapseFrom_concat hl, List.getLast?_concat] at hc
      exact Option.some.inj hc ▸ hl

end Text

theorem isNeat_plainLine (raw : List Char) : Text.IsNeat (plainLine raw) := by
  have hneat := Text.isNeat_collapse (Text.trim_trim (raw.takeWhile (· != ';')))
  rw [plainLine, hneat.1]
  exact hneat

/-- The plain form of a line holds nothing of a comment. -/
theorem no_comment_plainLine (raw : List Char) : ∀ c ∈ plainLine raw, c ≠ ';' := by
  rintro c hc rfl
  have hcollapsed := Text.mem_of_mem_collapseFrom (Text.mem_of_mem_trim hc) (by decide)
  have hkept := List.mem_takeWhile_imp (Text.mem_of_mem_trim hcollapsed)
  exact absurd hkept (by decide)

/-- What a line of a script holds but for spaces stands in the source text and is no line end. -/
theorem mem_of_mem_sourceLines {source : String} {line : List Char} (hl : line ∈ sourceLines source) {c : Char}
    (h : c ∈ line) (hc : c ≠ ' ') : c ∈ source.toList ∧ Text.isLineEnd c = false := by
  obtain ⟨raw, hraw, rfl⟩ := List.mem_map.mp (List.mem_filter.mp hl).1
  have hcollapsed := Text.mem_of_mem_collapseFrom (Text.mem_of_mem_trim h) hc
  exact Text.mem_of_mem_lines hraw ((List.takeWhile_prefix _).subset (Text.mem_of_mem_trim hcollapsed))

/-- A neat text without a comment, and perhaps spaces behind, is a plain line. -/
theorem plainLine_neat {cs padding : List Char} (h : Text.IsNeat cs) (hne : cs ≠ []) (hc : ∀ c ∈ cs, c ≠ ';')
    (hpadding : ∀ c ∈ padding, c = ' ') : plainLine (cs ++ padding) = cs := by
  obtain ⟨hhead, hlast⟩ := Text.trim_eq_self.mp h.1
  have htake : (cs ++ padding).takeWhile (· != ';') = cs ++ padding := by
    refine List.takeWhile_eq_self_iff.mpr (List.forall_mem_append.mpr ⟨?_, ?_⟩)
    · exact fun c hm => by simpa using hc c hm
    · exact fun c hm => by rw [hpadding c hm]; rfl
  have htrim : Text.trim (cs ++ padding) = cs :=
    Text.trimWhile_append (List.head?_eq_some_head hne) (List.getLast?_eq_some_getLast hne)
      (hhead _ (List.head?_eq_some_head hne)) (hlast _ (List.getLast?_eq_some_getLast hne))
      fun e he => by rw [hpadding e he]; rfl
  rw [plainLine, htake, htrim, h.2, h.1]

end PointerScript
