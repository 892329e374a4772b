import Mathlib.Data.List.Forall2
import PointerScript.Proofs.Layout
import PointerScript.Window.Highlight

/-! Highlighting. A keyword is coloured where it is a whole token: a run of word characters and dollars that none of
these touches. A character lies in one token at most, so keywords are never drawn over each other, and it does not
matter in which order they are drawn. The comment is drawn last and covers the keywords in it; it is what the compiler
leaves out.

The stretches are counted in characters, but a window system counts units of sixteen bits. So every unit is drawn as the
character of the same number ought to be, and behind a character of two units the colours come too early. -/

namespace PointerScript

namespace Highlight

open Text

/-- A token of a line: a run of token characters from an index on, with no token character before or behind it. -/
def IsToken (line : List Char) (start : Nat) (token : List Char) : Prop :=
  ∃ before after, line = before ++ (token ++ after) ∧ before.length = start ∧
    (∀ c ∈ token, isTokenChar c = true) ∧
    before.getLast?.any isTokenChar = false ∧ after.head?.any isTokenChar = false

/-- The token that holds the character at an index: the longest run of token characters around it. -/
def TokenAt (line : List Char) (index : Nat) (token : List Char) : Prop :=
  ∃ start, IsToken line start token ∧ start ≤ index ∧ index < start + token.length

/-- Whether groups have a token among their keywords and draw it in a style. -/
def Draws (gs : List Group) (token : List Char) (style : Style) : Prop :=
  ∃ group ∈ gs, String.ofList token ∈ group.keywords ∧ group.style = style

/-- Groups whose keywords are not empty and consist of token characters, each drawn in one style only. -/
structure Unambiguous (gs : List Group) : Prop where
  tokens : ∀ {token style}, Draws gs token style → token ≠ [] ∧ ∀ c ∈ token, isTokenChar c = true
  styles : ∀ {token style other}, Draws gs token style → Draws gs token other → style = other

/-- The same groups in any order, with their keywords in any order. -/
def Reordered (gs others : List Group) : Prop :=
  ∃ sorted, gs.Perm sorted ∧
    List.Forall₂ (fun group other => group.keywords.Perm other.keywords ∧ group.style = other.style) sorted others

section Tokens

variable {line s t : List Char} {a b i : Nat}

private theorem takeWhile_run {run rest : List Char} (hrun : ∀ c ∈ run, isTokenChar c = true)
    (hrest : rest.head?.any isTokenChar = false) : (run ++ rest).takeWhile isTokenChar = run := by
  rw [List.takeWhile_append_of_pos hrun]
  cases rest with
  | nil => simp
  | cons c cs =>
    have hc : isTokenChar c = false := hrest
    simp [hc]

/-- A token consists of the token characters at once before a character of it and of those from it on. -/
theorem IsToken.halves (h : IsToken line a s) (hle : a ≤ i) (hlt : i < a + s.length) :
    let front := ((line.take i).reverse.takeWhile isTokenChar).reverse
    s = front ++ (line.drop i).takeWhile isTokenChar ∧ a + front.length = i := by
  obtain ⟨before, after, rfl, rfl, hs, hbefore, hafter⟩ := h
  obtain ⟨k, rfl⟩ := Nat.exists_eq_add_of_le hle
  have hk : k ≤ s.length := by omega
  have htake : (before ++ (s ++ after)).take (before.length + k) = before ++ s.take k := by
    rw [List.take_length_add_append, List.take_append_of_le_length hk]
  have hdrop : (before ++ (s ++ after)).drop (before.length + k) = s.drop k ++ after := by
    rw [List.drop_length_add_append, List.drop_append_of_le_length hk]
  have hfront : ((before ++ s.take k).reverse.takeWhile isTokenChar).reverse = s.take k := by
    rw [List.reverse_append, takeWhile_run, List.reverse_reverse]
    · intro c hc
      exact hs c (List.mem_of_mem_take (List.mem_reverse.mp hc))
    · rwa [List.head?_reverse]
  have hback : (s.drop k ++ after).takeWhile isTokenChar = s.drop k :=
    takeWhile_run (fun c hc => hs c (List.mem_of_mem_drop hc)) hafter
  dsimp only
  rw [htake, hdrop, hfront, hback, List.take_append_drop, List.length_take, Nat.min_eq_left hk]
  exact ⟨rfl, rfl⟩

/-- Tokens that have a character in common are the same. -/
theorem IsToken.unique (hs : IsToken line a s) (ht : IsToken line b t) (hsi : a ≤ i ∧ i < a + s.length)
    (hti : b ≤ i ∧ i < b + t.length) : a = b ∧ s = t := by
  obtain ⟨hs, ha⟩ := hs.halves hsi.1 hsi.2
  obtain ⟨ht, hb⟩ := ht.halves hti.1 hti.2
  exact ⟨by omega, hs.trans ht.symm⟩

theorem TokenAt.unique (hs : TokenAt line i s) (ht : TokenAt line i t) : s = t := by
  obtain ⟨a, hs, hsi⟩ := hs
  obtain ⟨b, ht, hti⟩ := ht
  exact (hs.unique ht hsi hti).2

end Tokens

section Occurrences

variable {word : List Char} {index k : Nat} {last : Option Char}

private theorem mem_occurrences_cons {c : Char} {cs : List Char} :
    k ∈ occurrences word index last (c :: cs) ↔
      (∃ after, c :: cs = word ++ after ∧ last.any isTokenChar = false ∧ after.head?.any isTokenChar = false) ∧
        k = index ∨ k ∈ occurrences word (index + 1) (some c) cs := by
  have hhere : (word.isPrefixOf (c :: cs) && !last.any isTokenChar &&
      !((c :: cs).drop word.length).head?.any isTokenChar) = true ↔
      ∃ after, c :: cs = word ++ after ∧ last.any isTokenChar = false ∧ after.head?.any isTokenChar = false := by
    simp only [Bool.and_eq_true, Bool.not_eq_true', List.isPrefixOf_iff_prefix]
    constructor
    · rintro ⟨⟨⟨after, heq⟩, hlast⟩, hafter⟩
      rw [← heq, List.drop_left] at hafter
      exact ⟨after, heq.symm, hlast, hafter⟩
    · rintro ⟨after, heq, hlast, hafter⟩
      rw [heq, List.drop_left]
      exact ⟨⟨⟨after, rfl⟩, hlast⟩, hafter⟩
  rw [← hhere, occurrences]
  split
  · rename_i hc
    rw [List.mem_cons, and_iff_right hc]
  · rename_i hc
    rw [or_iff_right (fun h => hc h.1)]

private theorem getLast?_cons_or (c : Char) (before : List Char) (last : Option Char) :
    (c :: before).getLast?.or last = before.getLast?.or (some c) := by
  rw [List.getLast?_cons]
  cases before.getLast? <;> rfl

/-- A word occurs where the text before it does not end, and the text behind it does not begin, with a token
character. -/
theorem mem_occurrences {line : List Char} (hne : word ≠ []) :
    k ∈ occurrences word index last line ↔ ∃ before after, line = before ++ (word ++ after) ∧
      index + before.length = k ∧ (before.getLast?.or last).any isTokenChar = false ∧
      after.head?.any isTokenChar = false := by
  induction line generalizing index last with
  | nil =>
    constructor
    · intro h
      cases h
    · rintro ⟨before, after, hline, _⟩
      simp [hne] at hline
  | cons c cs ih =>
    rw [mem_occurrences_cons, ih]
    constructor
    · rintro (⟨⟨after, heq, hlast, hafter⟩, rfl⟩ | ⟨before, after, rfl, hk, hlast, hafter⟩)
      · exact ⟨[], after, heq, rfl, hlast, hafter⟩
      · refine ⟨c :: before, after, rfl, ?_, by rwa [getLast?_cons_or], hafter⟩
        rw [← hk, List.length_cons]
        omega
    · rintro ⟨before, after, heq, hk, hlast, hafter⟩
      cases before with
      | nil => exact .inl ⟨⟨after, heq, hlast, hafter⟩, hk.symm⟩
      | cons d before =>
        obtain ⟨rfl, rfl⟩ := List.cons.inj heq
        rw [getLast?_cons_or] at hlast
        refine .inr ⟨before, after, rfl, ?_, hlast, hafter⟩
        rw [← hk, List.length_cons]
        omega

end Occurrences

section Spans

variable {gs others : List Group} {line : List Char} {i : Nat}

/-- The stretches of keywords are those of the tokens that are keywords. -/
theorem mem_groupSpans (h : Unambiguous gs) {s : Span} :
    s ∈ groupSpans gs line ↔
      ∃ token, IsToken line s.start token ∧ token.length = s.length ∧ Draws gs token s.style := by
  have hword {token : List Char} {style : Style} (hdraws : Draws gs token style) :
      s.start ∈ occurrences token 0 none line ↔ IsToken line s.start token := by
    obtain ⟨hne, hchars⟩ := h.tokens hdraws
    rw [mem_occurrences hne]
    simp only [IsToken, Nat.zero_add, Option.or_none, and_iff_right hchars]
  simp only [groupSpans, keywordSpans, List.mem_flatMap, List.mem_map]
  constructor
  · rintro ⟨group, hg, word, hw, start, hstart, rfl⟩
    have hdraws : Draws gs word.toList group.style := ⟨group, hg, by simpa using hw, rfl⟩
    exact ⟨word.toList, (hword hdraws).mp hstart, String.length_toList, hdraws⟩
  · rintro ⟨token, htoken, hlength, hdraws⟩
    have hstart := (hword hdraws).mpr htoken
    obtain ⟨group, hg, hw, hstyle⟩ := hdraws
    refine ⟨group, hg, String.ofList token, hw, s.start, by simpa using hstart, ?_⟩
    rw [hstyle, String.length_ofList, hlength]

theorem exists_span_over (h : Unambiguous gs) {style : Style} :
    (∃ s ∈ groupSpans gs line, s.Over i ∧ s.style = style) ↔ ∃ token, TokenAt line i token ∧ Draws gs token style := by
  constructor
  · rintro ⟨s, hs, hover, rfl⟩
    obtain ⟨token, htoken, hlength, hdraws⟩ := (mem_groupSpans h).mp hs
    rw [Span.Over, ← hlength] at hover
    exact ⟨token, ⟨s.start, htoken, hover⟩, hdraws⟩
  · rintro ⟨token, ⟨start, htoken, hi⟩, hdraws⟩
    exact ⟨⟨start, token.length, style⟩, (mem_groupSpans h).mpr ⟨token, htoken, rfl, hdraws⟩, hi, rfl⟩

/-- Keywords are never drawn over each other in another style. -/
theorem style_eq_of_over (h : Unambiguous gs) {s t : Span} (hs : s ∈ groupSpans gs line) (ht : t ∈ groupSpans gs line)
    (hsi : s.Over i) (hti : t.Over i) : s.style = t.style := by
  obtain ⟨token, htoken, hsdraws⟩ := (exists_span_over h).mp ⟨s, hs, hsi, rfl⟩
  obtain ⟨token', htoken', htdraws⟩ := (exists_span_over h).mp ⟨t, ht, hti, rfl⟩
  obtain rfl := htoken.unique htoken'
  exact h.styles hsdraws htdraws

theorem draws_cons {group : Group} {token : List Char} {style : Style} :
    Draws (group :: gs) token style ↔
      (String.ofList token ∈ group.keywords ∧ group.style = style) ∨ Draws gs token style := by
  simp [Draws]

theorem Reordered.draws (h : Reordered gs others) {token : List Char} {style : Style} :
    Draws gs token style ↔ Draws others token style := by
  obtain ⟨sorted, hperm, hsame⟩ := h
  have hsorted : Draws gs token style ↔ Draws sorted token style := by
    simp only [Draws, hperm.mem_iff]
  rw [hsorted]
  clear hperm hsorted
  induction hsame with
  | nil => rfl
  | cons hgroup _ ih =>
    rw [draws_cons, draws_cons, hgroup.1.mem_iff, hgroup.2]
    exact or_congr_right ih

theorem Reordered.unambiguous (h : Reordered gs others) (hothers : Unambiguous others) : Unambiguous gs where
  tokens hdraws := hothers.tokens (h.draws.mp hdraws)
  styles hdraws hdraws' := hothers.styles (h.draws.mp hdraws) (h.draws.mp hdraws')

end Spans

section Drawing

variable {canvas : Canvas} {units : Nat} {spans : List Span} {u : Fin units}

theorem Canvas.Lawful.styleAt_of_none_over (h : canvas.Lawful) (l : canvas.Line units)
    (hspans : ∀ s ∈ spans, ¬ s.Over u) : canvas.styleAt (spans.foldl canvas.draw l) u = canvas.styleAt l u := by
  induction spans generalizing l with
  | nil => rfl
  | cons s spans ih =>
    rw [List.forall_mem_cons] at hspans
    rw [List.foldl_cons, ih _ hspans.2, h.outside l hspans.1]

/-- Stretches of one style give that style to a unit under any of them. The induction goes on behind the stretch that
was taken, so what comes before the last one over the unit makes no difference. -/
theorem Canvas.Lawful.styleAt_of_over (h : canvas.Lawful) (l : canvas.Line units) {style : Style}
    (hspans : ∀ s ∈ spans, s.Over u → s.style = style) (hover : ∃ s ∈ spans, s.Over u) :
    canvas.styleAt (spans.foldl canvas.draw l) u = some style := by
  induction spans generalizing l with
  | nil =>
    obtain ⟨s, hs, _⟩ := hover
    cases hs
  | cons s spans ih =>
    rw [List.forall_mem_cons] at hspans
    rw [List.foldl_cons]
    by_cases hlater : ∃ t ∈ spans, t.Over u
    · exact ih _ hspans.2 hlater
    · have hnone : ∀ t ∈ spans, ¬ t.Over u := fun t ht hu => hlater ⟨t, ht, hu⟩
      have hs : s.Over u := by
        obtain ⟨t, ht, hu⟩ := hover
        rcases List.mem_cons.mp ht with rfl | ht
        · exact hu
        · exact absurd hu (hnone t ht)
      rw [h.styleAt_of_none_over _ hnone, h.inside l hs, hspans.1 hs]

end Drawing

/-- The text of a line before its first semicolon. -/
def uncommented (line : List Char) : List Char :=
  line.takeWhile (· != ';')

section Highlighting

variable {canvas : Canvas} {gs : List Group} {line : List Char}

theorem length_uncommented_le (line : List Char) : (uncommented line).length ≤ line.length :=
  (List.takeWhile_sublist (· != ';')).length_le

theorem uncommented_eq_self (h : ';' ∉ line) : uncommented line = line := by
  rw [uncommented, List.takeWhile_eq_self_iff]
  intro c hc
  refine bne_iff_ne.mpr ?_
  rintro rfl
  exact h hc

theorem length_uncommented_lt (h : ';' ∈ line) : (uncommented line).length < line.length := by
  refine Nat.lt_of_le_of_ne (length_uncommented_le line) fun hlength => ?_
  have heq : uncommented line = line := (List.takeWhile_sublist (· != ';')).eq_of_length hlength
  have hne := List.takeWhile_eq_self_iff.mp heq ';' h
  exact absurd hne (by decide)

/-- The comment is one stretch, from the first semicolon to the end. -/
theorem commentSpans_eq (line : List Char) : commentSpans line =
    if (uncommented line).length < line.length then
      [⟨(uncommented line).length, line.length - (uncommented line).length, comment⟩]
    else [] := rfl

/-- What a unit is drawn like, whatever the window system: the comment covers the keywords. -/
theorem Canvas.Lawful.styleAt_highlight (h : canvas.Lawful) (hgs : Unambiguous gs) (u : Fin (width line))
    {style : Style} : canvas.styleAt (canvas.highlight gs line) u = some style ↔
      if (uncommented line).length ≤ u ∧ u < line.length then style = comment
      else ∃ token, TokenAt line u token ∧ Draws gs token style := by
  rw [Canvas.highlight, spansOf, List.foldl_append]
  generalize hl : (groupSpans gs line).foldl canvas.draw (canvas.blank _) = l
  by_cases hcomment : (uncommented line).length ≤ u ∧ u < line.length
  · have hover : Span.Over ⟨(uncommented line).length, line.length - (uncommented line).length, comment⟩ u :=
      ⟨hcomment.1, by dsimp only; omega⟩
    rw [if_pos hcomment, commentSpans_eq, if_pos (Nat.lt_of_le_of_lt hcomment.1 hcomment.2), List.foldl_cons,
      List.foldl_nil, h.inside l hover, Option.some.injEq, eq_comm]
  · have hnone : ∀ s ∈ commentSpans line, ¬ s.Over u := by
      rw [commentSpans_eq]
      split
      · rintro s hs ⟨hle, hlt⟩
        obtain rfl := List.mem_singleton.mp hs
        dsimp only at hle hlt
        omega
      · rintro s hs
        cases hs
    rw [if_neg hcomment, h.styleAt_of_none_over l hnone, ← exists_span_over hgs, ← hl]
    by_cases hover : ∃ s ∈ groupSpans gs line, s.Over u
    · obtain ⟨s, hs, hu⟩ := hover
      have hsame : ∀ t ∈ groupSpans gs line, t.Over u → t.style = s.style :=
        fun t ht hti => style_eq_of_over hgs ht hs hti hu
      rw [h.styleAt_of_over _ hsame ⟨s, hs, hu⟩, Option.some.injEq]
      constructor
      · intro hstyle
        exact ⟨s, hs, hu, hstyle⟩
      · rintro ⟨t, ht, hti, rfl⟩
        exact (hsame t ht hti).symm
    · rw [h.styleAt_of_none_over _ (fun s hs hu => hover ⟨s, hs, hu⟩), h.blank]
      constructor
      · intro hstyle
        cases hstyle
      · rintro ⟨s, hs, hu, _⟩
        exact absurd ⟨s, hs, hu⟩ hover

/-- The order of groups and keywords makes no difference. -/
theorem Canvas.Lawful.styleAt_of_reordered (h : canvas.Lawful) {others : List Group} (hgs : Reordered gs others)
    (hothers : Unambiguous others) (u : Fin (width line)) :
    canvas.styleAt (canvas.highlight gs line) u = canvas.styleAt (canvas.highlight others line) u := by
  ext style
  rw [h.styleAt_highlight (hgs.unambiguous hothers), h.styleAt_highlight hothers]
  simp only [hgs.draws]

end Highlighting

theorem unambiguous_groups : Unambiguous groups := by
  have htokens : ∀ group ∈ groups, ∀ word ∈ group.keywords,
      word.toList ≠ [] ∧ word.toList.all isTokenChar = true := by decide
  have hstyles : ∀ group ∈ groups, ∀ other ∈ groups, ∀ word ∈ group.keywords, word ∈ other.keywords →
      group.style = other.style := by decide
  constructor
  · rintro token _ ⟨group, hg, hw, _⟩
    obtain ⟨hne, hchars⟩ := htokens group hg _ hw
    rw [String.toList_ofList] at hne hchars
    exact ⟨hne, List.all_eq_true.mp hchars⟩
  · rintro token _ _ ⟨group, hg, hw, rfl⟩ ⟨other, ho, hw', rfl⟩
    exact hstyles group hg other ho _ hw hw'

/-- The groups of scripts have styles of their own. -/
theorem draws_groups {group : Group} (hg : group ∈ groups) {token : List Char} :
    Draws groups token group.style ↔ String.ofList token ∈ group.keywords := by
  have hown : ∀ group ∈ groups, ∀ other ∈ groups, other.style = group.style → other = group := by decide
  constructor
  · rintro ⟨other, ho, hw, hstyle⟩
    obtain rfl := hown group hg other ho hstyle
    exact hw
  · intro hw
    exact ⟨group, hg, hw, rfl⟩

/-- Whether the character at an index belongs to a token that is a keyword of a group. -/
def KeywordAt (group : Group) (line : List Char) (i : Nat) : Prop :=
  ∃ token, TokenAt line i token ∧ String.ofList token ∈ group.keywords

theorem exists_keywordAt {line : List Char} {i : Nat} :
    (∃ group ∈ groups, KeywordAt group line i) ↔ ∃ style token, TokenAt line i token ∧ Draws groups token style := by
  constructor
  · rintro ⟨group, hg, token, htoken, hw⟩
    exact ⟨group.style, token, htoken, group, hg, hw, rfl⟩
  · rintro ⟨_, token, htoken, group, hg, hw, rfl⟩
    exact ⟨group, hg, token, htoken, hw⟩

/-- The way in which the character at an index ought to be drawn: as a comment from the first semicolon on, and before
it in the style of the group of which its token is a keyword, or plainly if it is none. -/
structure IsDue (line : List Char) (i : Nat) (shown : Option Style) : Prop where
  comment : (uncommented line).length ≤ i → shown = some comment
  keyword : i < (uncommented line).length → ∀ group ∈ groups, shown = some group.style ↔ KeywordAt group line i
  plain : i < (uncommented line).length → (∀ group ∈ groups, ¬ KeywordAt group line i) → shown = none

section Units

variable {canvas : Canvas} {line : List Char} {i : Nat}

/-- A unit is drawn as the character of the same number ought to be. -/
theorem Canvas.Lawful.isDue_highlight (h : canvas.Lawful) {u : Fin (width line)} (hu : u < line.length) :
    IsDue line u (canvas.styleAt (canvas.highlight groups line) u) := by
  have hstyle {style : Style} := @styleAt_highlight canvas groups line h unambiguous_groups u style
  refine ⟨?_, ?_, ?_⟩
  · intro hle
    rw [hstyle, if_pos ⟨hle, hu⟩]
  · intro hlt group hg
    rw [hstyle, if_neg (by omega)]
    simp only [draws_groups hg, KeywordAt]
  · intro hlt hplain
    refine Option.eq_none_iff_forall_ne_some.mpr fun style hsome => ?_
    rw [hstyle, if_neg (by omega)] at hsome
    obtain ⟨group, hg, hkeyword⟩ := exists_keywordAt.mpr ⟨style, hsome⟩
    exact hplain group hg hkeyword

theorem TokenAt.lt_length {token : List Char} (h : TokenAt line i token) : i < line.length := by
  obtain ⟨start, ⟨before, after, rfl, rfl, _⟩, _, hlt⟩ := h
  simp only [List.length_append]
  omega

/-- Units beyond the number of characters are drawn plainly. -/
theorem Canvas.Lawful.styleAt_beyond (h : canvas.Lawful) {u : Fin (width line)} (hu : line.length ≤ u) :
    canvas.styleAt (canvas.highlight groups line) u = none := by
  refine Option.eq_none_iff_forall_ne_some.mpr fun style hsome => ?_
  rw [h.styleAt_highlight unambiguous_groups, if_neg (by omega)] at hsome
  obtain ⟨token, htoken, _⟩ := hsome
  exact absurd htoken.lt_length (by omega)

/-- The units that the character at an index takes. -/
def Occupies (line : List Char) (i u : Nat) : Prop :=
  width (line.take i) ≤ u ∧ u < width (line.take (i + 1))

theorem width_cons (c : Char) (line : List Char) :
    width (c :: line) = (if IsNarrow c then 1 else 2) + width line := rfl

theorem width_append (line rest : List Char) : width (line ++ rest) = width line + width rest := by
  induction line with
  | nil => exact (Nat.zero_add _).symm
  | cons c line ih => rw [List.cons_append, width_cons, width_cons, ih, Nat.add_assoc]

theorem width_eq_length (h : ∀ c ∈ line, IsNarrow c) : width line = line.length := by
  induction line with
  | nil => rfl
  | cons c line ih =>
    rw [List.forall_mem_cons] at h
    rw [width_cons, if_pos h.1, ih h.2, List.length_cons, Nat.add_comm]

theorem length_le_width (line : List Char) : line.length ≤ width line := by
  induction line with
  | nil => exact Nat.le_refl 0
  | cons c line ih =>
    rw [width_cons, List.length_cons]
    split <;> omega

theorem length_lt_width (h : ∃ c ∈ line, ¬ IsNarrow c) : line.length < width line := by
  induction line with
  | nil =>
    obtain ⟨c, hc, _⟩ := h
    cases hc
  | cons c line ih =>
    have hle := length_le_width line
    rw [width_cons, List.length_cons]
    by_cases hc : IsNarrow c
    · rw [if_pos hc]
      obtain ⟨d, hd, hwide⟩ := h
      rcases List.mem_cons.mp hd with rfl | hd
      · exact absurd hc hwide
      · have hlt := ih ⟨d, hd, hwide⟩
        omega
    · rw [if_neg hc]
      omega

/-- As long as all characters take one unit, the characters and the units have the same numbers. -/
theorem Occupies.eq_of_narrow {u : Nat} (h : Occupies line i u) (hnarrow : ∀ c ∈ line.take (i + 1), IsNarrow c) :
    u = i ∧ i < line.length := by
  have hbefore : ∀ c ∈ line.take i, IsNarrow c := by
    intro c hc
    exact hnarrow c (List.take_subset_take_left _ (Nat.le_succ i) hc)
  rw [Occupies, width_eq_length hbefore, width_eq_length hnarrow, List.length_take, List.length_take] at h
  omega

theorem Occupies.lt_length {u : Nat} (h : Occupies line i u) : i < line.length := by
  by_contra hi
  rw [Occupies, List.take_of_length_le (by omega), List.take_of_length_le (by omega)] at h
  omega

theorem Occupies.le {u : Nat} (h : Occupies line i u) : i ≤ u := by
  have hle := length_le_width (line.take i)
  rw [List.length_take, Nat.min_eq_left (Nat.le_of_lt h.lt_length)] at hle
  exact Nat.le_trans hle h.1

/-- Every character takes a unit. -/
theorem occupies_first (hi : i < line.length) : Occupies line i (width (line.take i)) := by
  refine ⟨Nat.le_refl _, ?_⟩
  rw [List.take_succ_eq_append_getElem hi, width_append, width_cons]
  split <;> omega

/-- The last unit belongs to the last character. -/
theorem occupies_last (hi : i + 1 = line.length) : Occupies line i (width line - 1) := by
  have hfirst := @occupies_first line i (by omega)
  rw [Occupies, hi, List.take_length] at hfirst
  rw [Occupies, hi, List.take_length]
  omega

theorem Occupies.lt_width {u : Nat} (h : Occupies line i u) : u < width line := by
  refine Nat.lt_of_lt_of_le h.2 ?_
  conv_rhs => rw [← List.take_append_drop (i + 1) line]
  rw [width_append]
  exact Nat.le_add_right _ _

/-- Keywords are written with characters of one unit. -/
theorem isNarrow_of_keywordAt {group : Group} (hg : group ∈ groups) {text : List Char} (h : KeywordAt group text i)
    {c : Char} (hc : text[i]? = some c) : IsNarrow c := by
  have hall : ∀ group ∈ groups, ∀ word ∈ group.keywords, word.toList.all (fun c => decide (IsNarrow c)) = true := by
    decide
  obtain ⟨token, ⟨start, ⟨before, after, rfl, rfl, _⟩, hle, hlt⟩, hw⟩ := h
  obtain ⟨k, rfl⟩ := Nat.exists_eq_add_of_le hle
  have hmem : c ∈ token := by
    rw [List.getElem?_append_right (by omega), Nat.add_sub_cancel_left,
      List.getElem?_append_left (by omega)] at hc
    exact List.mem_of_getElem? hc
  have htoken := hall group hg _ hw
  rw [String.toList_ofList, List.all_eq_true] at htoken
  exact of_decide_eq_true (htoken c hmem)

end Units

/-- Whether all units of all characters of a line are drawn as they ought to be. -/
def Canvas.IsExact (canvas : Canvas) (line : List Char) : Prop :=
  ∀ i (u : Fin (width line)), Occupies line i u → IsDue line i (canvas.styleAt (canvas.highlight groups line) u)

/-- Whether no colour of a line stands behind a character of two units: there is no such character, or there is no
comment and no keyword behind one. -/
def IsAligned (line : List Char) : Prop :=
  (∀ c ∈ line, IsNarrow c) ∨
    ';' ∉ line ∧ ∀ i, ∀ group ∈ groups, KeywordAt group line i → ∀ c ∈ line.take i, IsNarrow c

section Alignment

variable {canvas : Canvas} {line : List Char}

theorem Canvas.Lawful.isExact_of_isAligned (h : canvas.Lawful) (hline : IsAligned line) : canvas.IsExact line := by
  intro i u hu
  have hsame (hnarrow : ∀ c ∈ line.take (i + 1), IsNarrow c) :
      IsDue line i (canvas.styleAt (canvas.highlight groups line) u) := by
    obtain ⟨heq, hlt⟩ := hu.eq_of_narrow hnarrow
    rw [← heq]
    exact h.isDue_highlight (heq ▸ hlt)
  rcases hline with hnarrow | ⟨hsemi, hkeywords⟩
  · exact hsame fun c hc => hnarrow c (List.mem_of_mem_take hc)
  by_cases hi : ∃ group ∈ groups, KeywordAt group line i
  · obtain ⟨group, hg, hkeyword⟩ := hi
    refine hsame fun c hc => ?_
    rw [List.take_add_one, List.mem_append, Option.mem_toList] at hc
    rcases hc with hc | hc
    · exact hkeywords i group hg hkeyword c hc
    · exact isNarrow_of_keywordAt hg hkeyword hc
  -- A plain character is drawn plainly: otherwise a keyword stands in its place, behind characters of one unit only.
  have hplace : ∀ group ∈ groups, ¬ KeywordAt group line u := by
    intro group hg hkeyword
    have hne : i ≠ u := by
      rintro rfl
      exact hi ⟨group, hg, hkeyword⟩
    have hlt := Nat.lt_of_le_of_ne hu.le hne
    refine hne (hu.eq_of_narrow fun c hc => ?_).1.symm
    exact hkeywords u group hg hkeyword c (List.take_subset_take_left _ hlt hc)
  have hnone : canvas.styleAt (canvas.highlight groups line) u = none := by
    by_cases hlt : u < line.length
    · exact (h.isDue_highlight hlt).plain (by rwa [uncommented_eq_self hsemi]) hplace
    · exact h.styleAt_beyond (Nat.le_of_not_lt hlt)
  rw [hnone]
  refine ⟨?_, ?_, fun _ _ => rfl⟩
  · intro hle
    rw [uncommented_eq_self hsemi] at hle
    exact absurd hu.lt_length (Nat.not_lt.mpr hle)
  · intro _ group hg
    refine iff_of_false (fun hsome => by cases hsome) fun hkeyword => hi ⟨group, hg, hkeyword⟩

theorem Canvas.Lawful.semicolon_not_mem (h : canvas.Lawful) (hexact : canvas.IsExact line)
    (hwide : line.length < width line) : ';' ∉ line := by
  intro hsemi
  have hlength := length_uncommented_lt hsemi
  have hlast := @occupies_last line (line.length - 1) (by omega)
  have hcomment := (hexact _ ⟨width line - 1, by omega⟩ hlast).comment (by omega)
  rw [h.styleAt_beyond (by dsimp only; omega)] at hcomment
  cases hcomment

/-- A keyword behind a character of two units asks for another keyword further on, in the place of which its colour
lands. So the induction is on the rest of the line. -/
theorem Canvas.Lawful.isNarrow_before_keyword (h : canvas.Lawful) (hexact : canvas.IsExact line) (hsemi : ';' ∉ line)
    {i : Nat} {group : Group} (hg : group ∈ groups) (hkeyword : KeywordAt group line i) :
    ∀ c ∈ line.take i, IsNarrow c := by
  by_contra hwide
  push Not at hwide
  induction hrest : line.length - i using Nat.strong_induction_on generalizing i group with
  | _ rest ih =>
    have hi : i < line.length := by
      obtain ⟨token, htoken, _⟩ := hkeyword
      exact htoken.lt_length
    have hlater : i < width (line.take i) := by
      have hlt := length_lt_width hwide
      rwa [List.length_take, Nat.min_eq_left (Nat.le_of_lt hi)] at hlt
    have hfirst := occupies_first hi
    have hright := hexact i ⟨_, hfirst.lt_width⟩ hfirst
    have hstyle := (hright.keyword (by rwa [uncommented_eq_self hsemi]) group hg).mpr hkeyword
    have hlt : width (line.take i) < line.length := by
      by_contra hge
      rw [h.styleAt_beyond (Nat.le_of_not_lt hge)] at hstyle
      cases hstyle
    have hdue := h.isDue_highlight (u := ⟨_, hfirst.lt_width⟩) hlt
    have hnext := (hdue.keyword (by rwa [uncommented_eq_self hsemi]) group hg).mp hstyle
    obtain ⟨c, hc, hcwide⟩ := hwide
    refine ih (line.length - width (line.take i)) (by omega) hg hnext ⟨c, ?_, hcwide⟩ rfl
    exact List.take_subset_take_left _ (Nat.le_of_lt hlater) hc

theorem Canvas.Lawful.isAligned_of_isExact (h : canvas.Lawful) (hexact : canvas.IsExact line) : IsAligned line := by
  by_cases hnarrow : ∀ c ∈ line, IsNarrow c
  · exact .inl hnarrow
  · push Not at hnarrow
    have hsemi := h.semicolon_not_mem hexact (length_lt_width hnarrow)
    exact .inr ⟨hsemi, fun i group hg hkeyword => h.isNarrow_before_keyword hexact hsemi hg hkeyword⟩

end Alignment

/-- Every window system draws a unit as the character of the same number ought to be drawn: as a comment from the first
semicolon on, which is what the compiler leaves out, and before it in the style of a group just if the longest run of
word characters and dollars around it is a keyword of that group. So a line is coloured exactly just if no colour stands
behind a character of two units. Other orders of the groups and of the keywords in them draw every line alike. -/
theorem highlighting_is_exact_just_if_aligned {canvas : Canvas} (h : canvas.Lawful) (line : List Char) :
    (canvas.IsExact line ↔ IsAligned line) ∧
    (∀ u : Fin (width line), u < line.length → IsDue line u (canvas.styleAt (canvas.highlight groups line) u)) ∧
    (∀ u : Fin (width line), line.length ≤ u → canvas.styleAt (canvas.highlight groups line) u = none) ∧
    plainLine line = [' '].intercalate (words (uncommented line)) ∧
    ∀ gs, Reordered gs groups → ∀ u,
      canvas.styleAt (canvas.highlight gs line) u = canvas.styleAt (canvas.highlight groups line) u := by
  refine ⟨⟨h.isAligned_of_isExact, h.isExact_of_isAligned⟩, fun u => h.isDue_highlight, fun u => h.styleAt_beyond, ?_,
    fun gs hgs => h.styleAt_of_reordered hgs unambiguous_groups⟩
  rw [uncommented, plainLine_eq_spaced, spaced_eq_intercalate]

instance (s : Span) (place : Nat) : Decidable (s.Over place) := instDecidableAnd

/-- A line as the styles of its units, each set on its own. -/
def sheet : Canvas where
  Line units := Fin units → Option Style
  blank _ _ := none
  draw l s u := if s.Over u then some s.style else l u
  styleAt l u := l u

theorem lawful_sheet : sheet.Lawful where
  blank _ := rfl
  inside := by
    intro _ _ _ _ hs
    exact if_pos hs
  outside := by
    intro _ _ _ _ hs
    exact if_neg hs

/-- A line that has a keyword in a longer one, in a longer token and before a character of two units, drawn with all
lists reversed. -/
theorem crowded_line_is_coloured :
    let line := "$MOUSE_X moverel move$ click 😀 moved".toList
    let gs := (groups.map fun group => { group with keywords := group.keywords.reverse }).reverse
    sheet.Lawful ∧ sheet.IsExact line ∧ Reordered gs groups ∧
      sheet.styleAt (sheet.highlight gs line) ⟨12, by decide +kernel⟩ = some actions.style ∧
      sheet.styleAt (sheet.highlight gs line) ⟨18, by decide +kernel⟩ = none := by
  intro line gs
  obtain ⟨hexact, hdue, _, _, horder⟩ := highlighting_is_exact_just_if_aligned lawful_sheet line
  have hgs : Reordered gs groups := by
    refine ⟨_, List.reverse_perm _, List.forall₂_map_left_iff.mpr (List.forall₂_same.mpr fun group _ => ?_)⟩
    exact ⟨List.reverse_perm _, rfl⟩
  have hsemi : ';' ∉ line := by decide +kernel
  have hwidth : line.length < width line := by decide +kernel
  have hnarrow : ∀ u : Fin (width line), ∀ group ∈ groups,
      sheet.styleAt (sheet.highlight groups line) u = some group.style →
        (line.take u).all (fun c => decide (IsNarrow c)) = true := by decide +kernel
  refine ⟨lawful_sheet, hexact.mpr (.inr ⟨hsemi, ?_⟩), hgs, ?_, ?_⟩
  · intro i group hg hkeyword c hc
    have hi : i < line.length := by
      obtain ⟨token, htoken, _⟩ := hkeyword
      exact htoken.lt_length
    have hstyle := ((hdue ⟨i, by omega⟩ hi).keyword (by rwa [uncommented_eq_self hsemi]) group hg).mpr hkeyword
    exact of_decide_eq_true (List.all_eq_true.mp (hnarrow _ group hg hstyle) c hc)
  · rw [horder gs hgs]
    decide +kernel
  · rw [horder gs hgs]
    decide +kernel

/-- Behind a character of two units the end of a keyword, and that of a comment, is left plain. -/
theorem shifted_colours_are_not_exact :
    ¬ sheet.IsExact "😀 move".toList ∧ ¬ sheet.IsExact "😀; c".toList := by
  have hmove : KeywordAt actions "😀 move".toList 5 := by
    refine ⟨"move".toList, ⟨2, ⟨"😀 ".toList, [], by decide +kernel, by decide +kernel, ?_, by decide +kernel,
      by decide +kernel⟩, by decide +kernel⟩, by decide +kernel⟩
    exact List.all_eq_true.mp (by decide +kernel)
  have hlast : sheet.styleAt (sheet.highlight groups "😀 move".toList) ⟨6, by decide +kernel⟩ = none := by
    decide +kernel
  have hcomment : sheet.styleAt (sheet.highlight groups "😀; c".toList) ⟨4, by decide +kernel⟩ = none := by
    decide +kernel
  refine ⟨fun hexact => ?_, fun hexact => ?_⟩
  · have hdue := hexact 5 ⟨6, by decide +kernel⟩ (by unfold Occupies; decide +kernel)
    rw [hlast] at hdue
    cases (hdue.keyword (by decide +kernel) actions (by decide)).mpr hmove
  · have hdue := hexact 3 ⟨4, by decide +kernel⟩ (by unfold Occupies; decide +kernel)
    rw [hcomment] at hdue
    cases hdue.comment (by decide +kernel)

end Highlight

end PointerScript
