import PointerScript.Proofs.Variables

/-! Which texts pass for the name of a variable. The check lets through the proper names, and each of them once more
with a line feed behind it. A word of a script has no line feed, so for scripts the check is exact and programs assign
to proper names only. -/

namespace PointerScript

namespace Text

/-- A letter from A to Z, large or small. -/
def IsLetter (c : Char) : Prop :=
  ('A' ≤ c ∧ c ≤ 'Z') ∨ ('a' ≤ c ∧ c ≤ 'z')

def IsDigit (c : Char) : Prop :=
  '0' ≤ c ∧ c ≤ '9'

private theorem isAlpha_iff {c : Char} : c.isAlpha = true ↔ IsLetter c := by
  change (c.isUpper || c.isLower) = true ↔ _
  rw [Bool.or_eq_true]
  exact or_congr decide_eq_true_iff (Bool.and_eq_true_iff.trans (and_congr decide_eq_true_iff decide_eq_true_iff))

private theorem isDigit_iff {c : Char} : c.isDigit = true ↔ IsDigit c :=
  Bool.and_eq_true_iff.trans (and_congr decide_eq_true_iff decide_eq_true_iff)

theorem isNameStart_iff {c : Char} : isNameStart c = true ↔ IsLetter c ∨ c = '_' := by
  rw [isNameStart, Bool.or_eq_true, beq_iff_eq, isAlpha_iff]

theorem isNameChar_iff {c : Char} : isNameChar c = true ↔ IsLetter c ∨ IsDigit c ∨ c = '_' := by
  change ((c.isAlpha || c.isDigit) || c == '_') = true ↔ _
  rw [Bool.or_eq_true, Bool.or_eq_true, beq_iff_eq, isAlpha_iff, isDigit_iff, or_assoc]

end Text

open Text SourceLine

/-- A proper name: it is not empty, begins with a letter or an underscore, and has no characters but letters, digits
and underscores. -/
structure IsProperName (s : String) : Prop where
  nonempty : s ≠ ""
  first : ∀ c, s.toList.head? = some c → IsLetter c ∨ c = '_'
  chars : ∀ c ∈ s.toList, IsLetter c ∨ IsDigit c ∨ c = '_'

theorem isProperName_iff {s : String} : IsProperName s ↔ IsName s := by
  constructor
  · rintro ⟨hne, hfirst, hchars⟩
    cases hs : s.toList with
    | nil => exact absurd (String.toList_eq_nil_iff.mp hs) hne
    | cons c cs =>
      rw [hs] at hfirst hchars
      exact ⟨c, cs, hs, isNameStart_iff.mpr (hfirst c rfl),
        fun d hd => isNameChar_iff.mpr (hchars d (List.mem_cons_of_mem c hd))⟩
  · rintro ⟨c, cs, hs, hc, hcs⟩
    have hc := isNameStart_iff.mp hc
    refine ⟨?_, ?_, ?_⟩
    · rintro rfl
      cases hs
    · intro d hd
      rw [hs] at hd
      obtain rfl : c = d := Option.some.inj hd
      exact hc
    · rw [hs, List.forall_mem_cons]
      exact ⟨hc.imp_right .inr, fun d hd => isNameChar_iff.mp (hcs d hd)⟩

/-- The check passes over one line feed at the end. -/
theorem isVariableName_line_feed {s : String} (h : IsName s) : isVariableName (s ++ "\n") = true := by
  obtain ⟨c, cs, hs, hc, hcs⟩ := h
  have hrest : (cs ++ ['\n']).dropWhile isNameChar = ['\n'] := by
    rw [List.dropWhile_append_of_pos hcs]
    rfl
  have htext : (s ++ "\n").toList = c :: (cs ++ ['\n']) := by
    rw [String.toList_append, hs]
    rfl
  simp [isVariableName, htext, hc, hrest]

/-- What passes is a name, or a name and a line feed. -/
theorem isName_of_isVariableName {s : String} (h : isVariableName s = true) :
    IsName s ∨ ∃ name, IsName name ∧ s = name ++ "\n" := by
  unfold isVariableName at h
  split at h
  · cases h
  · rename_i c cs hs
    obtain ⟨hc, hrest⟩ := Bool.and_eq_true_iff.mp h
    have hsplit := List.takeWhile_append_dropWhile (p := isNameChar) (l := cs)
    rcases (Bool.or_eq_true _ _).mp hrest with hnone | hfeed
    · exact .inl ⟨c, cs, hs, hc, List.dropWhile_eq_nil_iff.mp (eq_of_beq hnone)⟩
    · refine .inr ⟨String.ofList (c :: cs.takeWhile isNameChar), ⟨c, _, String.toList_ofList, hc, ?_⟩, ?_⟩
      · intro d hd
        exact List.mem_takeWhile_imp hd
      · rw [eq_of_beq hfeed] at hsplit
        rw [← String.toList_inj, String.toList_append, String.toList_ofList, hs, List.cons_append]
        exact congrArg (c :: ·) hsplit.symm

theorem isVariableName_iff {s : String} :
    isVariableName s = true ↔ IsProperName s ∨ ∃ name, IsProperName name ∧ s = name ++ "\n" := by
  simp only [isProperName_iff]
  constructor
  · exact isName_of_isVariableName
  · rintro (hname | ⟨name, hname, rfl⟩)
    · exact hname.isVariableName
    · exact isVariableName_line_feed hname

theorem not_isProperName_line_feed (s : String) : ¬ IsProperName (s ++ "\n") := by
  intro h
  have hfeed := (isProperName_iff.mp h).unblank '\n' (by simp)
  exact absurd hfeed (by decide)

/-- The check of names is exact but for a line feed. It lets a text through if it is a proper name or one with a line
feed behind it; so it tells whether the text is a proper name, except for these last ones. The target of an assignment
in a script is none of them: there the check is exact, and what a compiled program assigns to is a proper name. -/
theorem name_check_is_exact_but_for_line_feed (s : String) :
    (isVariableName s = true ↔ IsProperName s ∨ ∃ name, IsProperName name ∧ s = name ++ "\n") ∧
    ((isVariableName s = true ↔ IsProperName s) ↔ ¬ ∃ name, IsProperName name ∧ s = name ++ "\n") ∧
    (∀ source, ∀ line ∈ sourceLines source, s = word (rest line).toList →
      (isVariableName s = true ↔ IsProperName s)) ∧
    ∀ safe source program, (compile safe source).1 = .program program →
      ∀ inst ∈ program, inst.assigned? = some s → IsProperName s := by
  refine ⟨isVariableName_iff, ?_, ?_, ?_⟩
  · constructor
    · rintro hexact ⟨name, hname, rfl⟩
      exact not_isProperName_line_feed name (hexact.mp (isVariableName_iff.mpr (.inr ⟨name, hname, rfl⟩)))
    · intro hnone
      rw [isVariableName_iff, or_iff_left hnone]
  · rintro source line hline rfl
    constructor
    · intro h
      exact isProperName_iff.mpr (isName_of_unblank h (unblank_target hline))
    · intro h
      exact isVariableName_iff.mpr (.inl h)
  · intro safe source program h inst hinst hs
    exact isProperName_iff.mpr (isName_of_compile h hinst hs)

/-- A script that assigns to a name with an underscore and a digit. -/
theorem underscored_name_is_proper :
    let inst : Instruction := .setVar "_a1" (.literal (.float (Binary64.ofInt 2)))
    let program := (Standard.initial false ++ [inst]).toArray
    let line := "var _a1 = 2".toList
    line ∈ sourceLines "var _a1 = 2" ∧ "_a1" = word (rest line).toList ∧
      (compile false "var _a1 = 2").1 = .program program ∧
      IsProperName "_a1" ∧ isVariableName "_a1" = true := by
  intro inst program line
  have hline : line ∈ sourceLines "var _a1 = 2" := by decide +kernel
  have htarget : "_a1" = word (rest line).toList := by decide +kernel
  have hc : (compile false "var _a1 = 2").1 = .program program := by decide +kernel
  obtain ⟨_, _, hscript, hprogram⟩ := name_check_is_exact_but_for_line_feed "_a1"
  have hname : IsProperName "_a1" := hprogram _ _ _ hc inst (by simp [program]) rfl
  exact ⟨hline, htarget, hc, hname, (hscript _ line hline htarget).mpr hname⟩

/-- A name with a line feed behind it passes the check and is not proper. -/
theorem line_feed_passes_name_check : isVariableName "x\n" = true ∧ ¬ IsProperName "x\n" := by
  have hfeed : "x\n" = "x" ++ "\n" := by decide
  refine ⟨by decide, ?_⟩
  rw [hfeed]
  exact not_isProperName_line_feed "x"

end PointerScript
