import PointerScript.Proofs.Number.Order
import PointerScript.Proofs.SettingsLoading
import PointerScript.Window.SettingsDialog

/-! The dialog for the settings without a change. It shows all settings as they are stored but one: its box for the dark
mode starts empty. So applying its choices keeps the settings in the table and in the file, and turns the dark mode off. -/

namespace PointerScript

open Text Settings

/-- Settings that the dialog can show. -/
structure Preferences where
  clearing : Bool
  debugging : Bool
  size : Int
  dark : Bool
  notifying : Bool
  key : Int
  least : 5 ≤ size
  most : size ≤ 20

namespace Preferences

def values (p : Preferences) : String → Json
  | "clear_terminal_on_run" => .bool p.clearing
  | "print_debug_msg" => .bool p.debugging
  | "text_size" => .int p.size
  | "dark_mode" => .bool p.dark
  | "notify_when_program_ends" => .bool p.notifying
  | "pause_resume_key" => .int p.key
  | _ => .null

/-- The same settings without the dark mode. -/
def lightened (p : Preferences) : Preferences :=
  { p with dark := false }

variable {host : Host}

theorem areWhole_values (p : Preferences) : AreWhole p.values := by
  refine forall_mem_names.mpr ⟨?_, ?_, ?_, ?_, ?_, ?_⟩ <;> intro text htext <;> cases htext

theorem areStorable_values (host : Host) (p : Preferences) : AreStorable host p.values :=
  areStorable_of_flat host (forall_mem_names.mpr ⟨rfl, rfl, rfl, rfl, rfl, rfl⟩) p.areWhole_values

theorem areReadable_values {p : Preferences} :
    AreReadable host p.values ↔ Json.CanRead (.int p.size) ∧ Json.CanRead (.int p.key) := by
  rw [AreReadable, forall_mem_names]
  refine ⟨?_, ?_⟩
  · rintro ⟨-, -, hsize, -, -, hkey⟩
    exact ⟨hsize.of_num, hkey.of_num⟩
  · rintro ⟨hsize, hkey⟩
    exact ⟨.bool p.clearing, .bool p.debugging, .num hsize, .bool p.dark, .bool p.notifying, .num hkey⟩

theorem areReadable_lightened {p : Preferences} (h : AreReadable host p.values) :
    AreReadable host p.lightened.values := by
  rw [areReadable_values] at h ⊢
  exact h

/-- The size of text is within the bounds of the slider. -/
theorem clamp_size (p : Preferences) : SettingsDialog.clamp (.int p.size) = .int p.size := by
  have hle {a b : Int} (h : a ≤ b) : (Number.int a).le (.int b) = true := by
    rw [@Number.le_iff _ _ (0, a * Binary64.unit) (0, b * Binary64.unit) rfl rfl]
    exact .inr ⟨rfl, Int.mul_le_mul_of_nonneg_right h (Int.natCast_nonneg _)⟩
  have hleast : Number.lt (.int p.size) SettingsDialog.leastSize = false := Number.lt_eq_false_of_le (hle p.least)
  have hmost : SettingsDialog.mostSize.lt (.int p.size) = false := Number.lt_eq_false_of_le (hle p.most)
  rw [SettingsDialog.clamp, hleast, hmost]
  rfl

/-- The dialog shows the settings, but for the dark mode. -/
theorem ofSettings_values (p : Preferences) : SettingsDialog.ofSettings (holding host p.values) =
    { debugging := p.debugging, clearing := p.clearing, notifying := p.notifying, slider := .int p.size,
      key := .int p.key } := by
  have htruthy (b : Bool) : (Json.bool b).truthy = b := by cases b <;> rfl
  rw [SettingsDialog.ofSettings, value_holding _ _ (by decide), value_holding _ _ (by decide),
    value_holding _ _ (by decide), value_holding _ _ (by decide), value_holding _ _ (by decide)]
  simp only [values, htruthy, Json.int, SettingsDialog.numberOf, clamp_size]

/-- The choices of the dialog are the settings without the dark mode. -/
theorem putInto_holding (p : Preferences) (v : String → Json) :
    (SettingsDialog.ofSettings (holding host p.values)).putInto (holding host v) = holding host p.lightened.values := by
  rw [ofSettings_values]
  rfl

/-- Choices that are applied without failure leave the dialog open as it is. -/
theorem play_apply {s : SettingsSession} {d : SettingsDialog} (hopen : d.isOpen = true)
    (hfault : (s.applyChoices d).fault = none) (acts : List SettingsAct) :
    ∃ signs, s.play d (.apply :: acts) = SettingsSession.play { s.applyChoices d with signs := signs } d acts := by
  let host := (s.applyChoices d).settings.host
  refine ⟨((s.applyChoices d).signs ++ (d.signOf host .apply).toArray).push (d.controls host), ?_⟩
  rw [SettingsSession.play, if_neg (by rw [hopen]; decide)]
  dsimp only
  rw [if_pos rfl, hfault, if_neg (by decide)]
  rfl

/-- A session that has not failed, with these settings in the table and in the file. -/
structure Agrees (p : Preferences) (host : Host) (s : SettingsSession) : Prop where
  fault : s.fault = none
  settings : s.settings = holding host p.values
  stored : AreStored host p.values s.files

theorem Agrees.applyChoices {p q : Preferences} (hreadable : AreReadable host p.lightened.values) {s : SettingsSession}
    (h : Agrees q host s) :
    Agrees p.lightened host (s.applyChoices (SettingsDialog.ofSettings (holding host p.values))) := by
  obtain ⟨bytes, hfile⟩ := exists_file_of_areStored h.stored
  have hstorable := areStorable_values host p.lightened
  rw [SettingsSession.applyChoices]
  dsimp only
  rw [h.settings, putInto_holding, store_holding_of_storable hreadable hstorable hfile]
  exact ⟨h.fault, rfl, areStored_put hreadable hstorable.whole s.files⟩

/-- Applying the choices again and again keeps the settings without the dark mode. -/
theorem Agrees.play_replicate {p q : Preferences} (hreadable : AreReadable host p.lightened.values)
    {s : SettingsSession} (h : Agrees q host s) (n : Nat) :
    Agrees (if n = 0 then q else p.lightened) host
      (s.play (SettingsDialog.ofSettings (holding host p.values)) (List.replicate n .apply)) := by
  induction n generalizing q s with
  | zero => exact h
  | succ n ih =>
    have hstep := h.applyChoices hreadable
    obtain ⟨signs, hplay⟩ := play_apply rfl hstep.fault (List.replicate n .apply)
    -- The dialog stays as it was opened, so every further round starts from settings that it has stored itself.
    have hnext := @ih p.lightened { s.applyChoices _ with signs := signs } ⟨hstep.fault, hstep.settings, hstep.stored⟩
    rw [ite_self] at hnext
    rw [List.replicate_succ, hplay, if_neg (Nat.succ_ne_zero n)]
    exact hnext

/-- What becomes of the settings if the choices are applied some times. -/
def applied (p : Preferences) (n : Nat) : Preferences :=
  if n = 0 then p else p.lightened

/-- The dialog is opened with the stored settings, whatever the table held before. -/
theorem agrees_edit {p : Preferences} {files : Files} (h : AreStored host p.values files) (w : String → Json) (n : Nat) :
    Agrees (p.applied n) host ((holding host w).edit files (List.replicate n .apply)).1 := by
  have hreadable := areReadable_lightened (areReadable_of_areStored (areReadable_startingOn host) h)
  rw [Settings.edit, h w]
  exact Agrees.play_replicate hreadable ⟨rfl, rfl, h⟩ n

theorem Agrees.dark_eq {p q : Preferences} {s : SettingsSession} (hp : Agrees p host s) (hq : Agrees q host s) :
    p.dark = q.dark := by
  have hvalue := congrArg (fun t => t.value "dark_mode") (hp.settings.symm.trans hq.settings)
  exact Json.bool.inj hvalue

end Preferences

/-- On every host, the dialog that is opened and applied any number of times without a change never fails. It keeps all
settings, in the table and in the file, but for the dark mode: once the choices are applied, that is off. So all is kept
just if nothing was applied or the dark mode was off. -/
theorem untouched_dialog_turns_off_dark_mode_only {host : Host} (p : Preferences) {files : Files}
    (h : AreStored host p.values files) (w : String → Json) (n : Nat) :
    (p.applied n).Agrees host ((holding host w).edit files (List.replicate n .apply)).1 ∧
      (p.Agrees host ((holding host w).edit files (List.replicate n .apply)).1 ↔ n = 0 ∨ p.dark = false) := by
  have hagrees := Preferences.agrees_edit h w n
  refine ⟨hagrees, ?_, ?_⟩
  · intro hsame
    by_cases hn : n = 0
    · exact .inl hn
    · have hdark := hsame.dark_eq hagrees
      rw [Preferences.applied, if_neg hn] at hdark
      exact .inr hdark
  · intro hkept
    have hsame : p.applied n = p := by
      rw [Preferences.applied]
      split
      · rfl
      · rename_i hn
        rw [Preferences.lightened, ← hkept.resolve_left hn]
    rwa [hsame] at hagrees

/-- Settings with the dark mode. -/
def nightly : Preferences where
  clearing := true
  debugging := false
  size := 10
  dark := true
  notifying := false
  key := 32
  least := by decide
  most := by decide

def nightlyFiles : Files :=
  Files.put [] [defaultPath] (.file (encodePieces (piecesOf nightly.values)).1)

theorem areStored_nightly (host : Host) : AreStored host nightly.values nightlyFiles := by
  refine areStored_put (Preferences.areReadable_values.mpr ⟨?_, ?_⟩) nightly.areWhole_values []
  · exact (by decide : (Number.digitChars 10).length ≤ Number.digitLimit)
  · exact (by decide : (Number.digitChars 32).length ≤ Number.digitLimit)

/-- All other settings survive three rounds. -/
theorem nightly_survives_otherwise :
    AreStored .plain nightly.values nightlyFiles ∧
      nightly.lightened.Agrees .plain ((holding .plain initial.value).edit nightlyFiles (List.replicate 3 .apply)).1 :=
  ⟨areStored_nightly _, (untouched_dialog_turns_off_dark_mode_only nightly (areStored_nightly _) initial.value 3).1⟩

/-- Applied once without a change, the dialog does not keep the dark mode. -/
theorem dark_mode_is_not_kept :
    AreStored .plain nightly.values nightlyFiles ∧
      ¬ nightly.Agrees .plain ((holding .plain initial.value).edit nightlyFiles [.apply]).1 := by
  refine ⟨areStored_nightly _, ?_⟩
  intro hsame
  have hdark := hsame.dark_eq (Preferences.agrees_edit (areStored_nightly _) initial.value 1)
  exact absurd hdark (by decide)

end PointerScript
