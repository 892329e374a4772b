import PointerScript.Proofs.StoredSettings

/-! Loading the settings. A file that is text but no JSON is replaced by the current settings, and the values of an object
are taken over. Loading fails for bytes that are no text, for JSON beyond the limits of the host and for a value that is
no object; and an object with the name of an operation, or of something else that every table of the host knows,
overwrites that or fails. -/

namespace PointerScript

open Text

namespace Settings

/-! ## Values in other places -/

theorem lookup_setEntry (name other : String) (value : Json) (attributes : List (String × Attribute)) :
    (setEntry name value attributes).lookup other =
      if other = name then some (.value value) else attributes.lookup other := by
  induction attributes with
  | nil =>
    rw [setEntry, List.lookup_cons]
    by_cases h : other = name
    · rw [if_pos h, h, BEq.rfl]
    · rw [if_neg h, beq_false_of_ne h]
  | cons entry rest ih =>
    rw [setEntry]
    by_cases hfirst : entry.1 = name
    · rw [if_pos hfirst, List.lookup_cons, List.lookup_cons, hfirst]
      by_cases h : other = name
      · rw [if_pos h, h, BEq.rfl]
      · rw [if_neg h, beq_false_of_ne h]
    · rw [if_neg hfirst, List.lookup_cons, List.lookup_cons]
      by_cases h : other = entry.1
      · rw [h, BEq.rfl, if_neg hfirst]
      · rw [beq_false_of_ne h, ih]

theorem set_eq_ok {s t : Settings} {name : String} {value : Json} (h : s.set name value = .ok t) :
    t = { s with attributes := setEntry name value s.attributes } := by
  rw [set] at h
  split at h
  · cases h
  · cases h
    rfl

/-- Whether a name has a value. -/
def HasValue (s : Settings) (name : String) : Prop :=
  ∃ json, s.attributes.lookup name = some (.value json)

theorem HasValue.set {s t : Settings} {name other : String} {value : Json} (hset : s.set other value = .ok t)
    (h : s.HasValue name ∨ name = other) : t.HasValue name := by
  rw [HasValue, set_eq_ok hset, lookup_setEntry]
  split
  · exact ⟨value, rfl⟩
  · exact h.resolve_right ‹_›

theorem knows_iff {s : Settings} {name : String} :
    s.knows name = true ↔ (s.attributes.lookup name).isSome = true ∨ name ∈ s.host.builtinNames := by
  rw [knows, Bool.or_eq_true, List.any_eq_true, List.lookup_isSome_iff, List.contains_iff_mem]
  refine or_congr_left (exists_congr fun entry => and_congr_right fun _ => ?_)
  rw [decide_eq_true_eq, beq_iff_eq, eq_comm]

theorem knows_set {s t : Settings} {name other : String} {value : Json} (hset : s.set other value = .ok t)
    (h : s.knows name = true) : t.knows name = true := by
  rw [knows_iff, set_eq_ok hset, lookup_setEntry]
  rw [knows_iff] at h
  split
  · exact .inl rfl
  · exact h

/-- Giving values to the names of some entries leaves the first one out, gives it its value or fails at it. -/
theorem setAll_cons_cases (s : Settings) (entry : WideText × Json) (entries : List (WideText × Json)) :
    (s.setAll (entry :: entries) = s.setAll entries ∧ ∀ name, entry.1 = keyOf name → s.knows name = false) ∨
      ∃ name, entry.1 = keyOf name ∧
        ((∃ t, s.set name entry.2 = .ok t ∧ s.setAll (entry :: entries) = t.setAll entries) ∨
          ∃ fault, s.setAll (entry :: entries) = (s, some fault)) := by
  by_cases hknown : ∃ name, entry.1 = keyOf name ∧ s.knows name = true
  · obtain ⟨name, hkey, hknows⟩ := hknown
    refine .inr ⟨name, hkey, ?_⟩
    obtain ⟨key, value⟩ := entry
    obtain rfl : key = keyOf name := hkey
    cases hset : s.set name value with
    | ok t => exact .inl ⟨t, rfl, setAll_cons_of_set hknows hset⟩
    | error fault => exact .inr ⟨fault, setAll_cons_of_refused hknows hset⟩
  · have hunknown : ∀ name, entry.1 = keyOf name → s.knows name = false := by
      intro name hkey
      rw [← Bool.not_eq_true]
      exact fun hknows => hknown ⟨name, hkey, hknows⟩
    exact .inl ⟨setAll_cons_of_unknown hunknown, hunknown⟩

/-- A value stays in its place. -/
theorem HasValue.setAll {s : Settings} {name : String} (h : s.HasValue name) (entries : List (WideText × Json)) :
    (s.setAll entries).1.HasValue name := by
  induction entries generalizing s with
  | nil => exact h
  | cons entry entries ih =>
    rcases setAll_cons_cases s entry entries with ⟨hskip, -⟩ | ⟨other, -, ⟨t, hset, hnext⟩ | ⟨fault, hfail⟩⟩
    · rw [hskip]
      exact ih h
    · rw [hnext]
      exact ih (HasValue.set hset (.inl h))
    · rw [hfail]
      exact h

/-- Unless giving them fails, every known name of some entries has a value afterwards. -/
theorem hasValue_setAll {s : Settings} {entries : List (WideText × Json)} (hfault : (s.setAll entries).2 = none)
    {name : String} (hmem : keyOf name ∈ entries.map Prod.fst) (hknows : s.knows name = true) :
    (s.setAll entries).1.HasValue name := by
  induction entries generalizing s with
  | nil => cases hmem
  | cons first entries ih =>
    rw [List.map_cons, List.mem_cons] at hmem
    rcases setAll_cons_cases s first entries with ⟨hskip, hunknown⟩ | ⟨other, hkey, ⟨t, hset, hnext⟩ | ⟨fault, hfail⟩⟩
    · rw [hskip] at hfault ⊢
      refine ih hfault (hmem.resolve_left fun he => ?_) hknows
      rw [hunknown name he.symm] at hknows
      cases hknows
    · rw [hnext] at hfault ⊢
      rcases hmem with he | hmem
      · exact (HasValue.set hset (.inr (keyOf_inj.mp (he.trans hkey)))).setAll entries
      · exact ih hfault hmem (knows_set hset hknows)
    · rw [hfail] at hfault
      cases hfault

section Reserved

variable {host : Host} {v w : String → Json} {files : Files} {bytes : Bytes} {entries : List (WideText × Json)}

/-- A table that holds the settings has values in no other places. -/
theorem not_hasValue_holding (host : Host) (v : String → Json) {name : String} (h : name ∉ names) :
    ¬ (holding host v).HasValue name := by
  rintro ⟨json, hlookup⟩
  rw [lookup_holding_of_not_mem host v h] at hlookup
  obtain ⟨before, after, he, -⟩ := List.lookup_eq_some_iff.mp hlookup
  have hmem : (name, Attribute.value json) ∈ operationNames.map fun name => (name, Attribute.operation) := by
    rw [he]
    simp
  obtain ⟨operation, -, hoperation⟩ := List.mem_map.mp hmem
  cases hoperation

/-- Entries that succeed and leave all other places as they are name no reserved places. -/
theorem keepsTo_of_setAll (hfault : ((holding host v).setAll entries).2 = none)
    (hothers : ∀ name ∉ names, ((holding host v).setAll entries).1.attributes.lookup name =
      (holding host v).attributes.lookup name) : KeepsTo host entries := by
  intro name hreserved hmem
  have hname : name ∉ names := fun hname => not_isReserved_of_mem_names hname hreserved
  obtain ⟨json, hjson⟩ := hasValue_setAll hfault hmem ((knows_holding host v name).mpr (.inr hreserved))
  exact not_hasValue_holding host v hname ⟨json, hothers name hname ▸ hjson⟩

/-- Stored settings can be read. -/
theorem areReadable_of_areStored (hw : AreReadable host w) (h : AreStored host v files) : AreReadable host v := by
  obtain ⟨bytes, hfile⟩ := exists_file_of_areStored h
  have hload := h w
  rw [load_holding host w hfile] at hload
  cases hcontent : Content.ofBytes host bytes with
  | table entries =>
    rw [hcontent] at hload
    obtain ⟨hsettings, hfault⟩ : ((holding host w).setAll entries).1 = holding host v ∧
        ((holding host w).setAll entries).2 = none :=
      ⟨congrArg Loaded.settings hload, congrArg Loaded.fault hload⟩
    -- The table holds settings only, so no reserved name was among the entries.
    have hentries : KeepsTo host entries := by
      refine keepsTo_of_setAll hfault fun name hname => ?_
      rw [hsettings, lookup_holding_of_not_mem _ _ hname, lookup_holding_of_not_mem _ _ hname]
    rw [setAll_holding (readable_of_ofBytes hcontent).of_obj.1 hentries] at hsettings
    intro name hname
    rw [← value_holding host v hname, ← hsettings, value_holding _ _ hname]
    exact areReadable_overlay hw hcontent name hname
  | notJson =>
    rw [hcontent] at hload
    have hprinted : unreadableMessage = "" := congrArg Loaded.printed hload
    exact absurd hprinted (by decide)
  | refused fault =>
    rw [hcontent] at hload
    cases congrArg Loaded.fault hload

end Reserved

/-! ## Contents of the file -/

/-- Loading the settings is robust if it succeeds, gives nothing but the settings a value, and leaves settings that can be
stored. -/
structure LoadsRobustly (s : Settings) (files : Files) : Prop where
  succeeds : (s.load files defaultPath).fault = none
  others : ∀ name ∉ names, (s.load files defaultPath).settings.attributes.lookup name = s.attributes.lookup name
  storable : ((s.load files defaultPath).settings.store (s.load files defaultPath).files defaultPath).2 = none

/-- The contents of a file that do no harm to settings with some values. -/
def Content.IsHarmless (host : Host) (v : String → Json) : Content → Prop
  | refused _ => False
  | notJson => AreStorable host v
  | table entries => KeepsTo host entries ∧ AreStorable host (overlay v entries)

section Contents

variable {host : Host} {v : String → Json} {files : Files} {bytes : Bytes} {entries : List (WideText × Json)}

theorem load_notJson (hfile : files.find? defaultPath = some (.file bytes))
    (hcontent : Content.ofBytes host bytes = .notJson) :
    (holding host v).load files defaultPath =
      { settings := holding host v, files := ((holding host v).store files defaultPath).1,
        printed := unreadableMessage, fault := ((holding host v).store files defaultPath).2 } := by
  rw [load_holding host v hfile, hcontent]
  rfl

theorem load_table (hfile : files.find? defaultPath = some (.file bytes))
    (hcontent : Content.ofBytes host bytes = .table entries) (h : KeepsTo host entries) :
    (holding host v).load files defaultPath = { settings := holding host (overlay v entries), files := files } := by
  have hnodup := (readable_of_ofBytes hcontent).of_obj.1
  rw [load_holding host v hfile, hcontent, loadContent, setAll_holding hnodup h]

theorem loadsRobustly_notJson (hv : AreReadable host v) (hfile : files.find? defaultPath = some (.file bytes))
    (hcontent : Content.ofBytes host bytes = .notJson) :
    LoadsRobustly (holding host v) files ↔ AreStorable host v := by
  have hload := @load_notJson host v files bytes hfile hcontent
  refine ⟨?_, ?_⟩
  · intro h
    have hsucceeds := h.succeeds
    rw [hload] at hsucceeds
    exact (store_holding_eq_none hv hfile).mp hsucceeds
  · intro h
    have hput := files.find?_put_settings (.file (encodePieces (piecesOf v)).1)
    rw [store_holding_of_storable hv h hfile] at hload
    refine ⟨?_, ?_, ?_⟩ <;> rw [hload]
    · intro name _
      rfl
    · exact (store_holding_eq_none hv hput).mpr h

theorem loadsRobustly_table (hv : AreReadable host v) (hfile : files.find? defaultPath = some (.file bytes))
    (hcontent : Content.ofBytes host bytes = .table entries) :
    LoadsRobustly (holding host v) files ↔ KeepsTo host entries ∧ AreStorable host (overlay v entries) := by
  have hreadable := areReadable_overlay hv hcontent
  refine ⟨?_, ?_⟩
  · intro h
    have hsucceeds := h.succeeds
    have hothers := h.others
    have hstorable := h.storable
    have hentries : KeepsTo host entries := by
      rw [load_holding host v hfile, hcontent, loadContent] at hsucceeds hothers
      exact keepsTo_of_setAll hsucceeds hothers
    rw [load_table hfile hcontent hentries] at hstorable
    exact ⟨hentries, (store_holding_eq_none hreadable hfile).mp hstorable⟩
  · rintro ⟨hentries, hstorable⟩
    have hload := @load_table host v files bytes entries hfile hcontent hentries
    refine ⟨?_, ?_, ?_⟩ <;> rw [hload]
    · intro name hname
      rw [lookup_holding_of_not_mem _ _ hname, lookup_holding_of_not_mem _ _ hname]
    · exact (store_holding_eq_none hreadable hfile).mpr hstorable

theorem loadsRobustly_iff (hv : AreReadable host v) (hfile : files.find? defaultPath = some (.file bytes)) :
    LoadsRobustly (holding host v) files ↔ (Content.ofBytes host bytes).IsHarmless host v := by
  cases hcontent : Content.ofBytes host bytes with
  | notJson => exact loadsRobustly_notJson hv hfile hcontent
  | table entries => exact loadsRobustly_table hv hfile hcontent
  | refused fault =>
    refine iff_of_false ?_ id
    intro h
    have hsucceeds := h.succeeds
    rw [load_holding host v hfile, hcontent] at hsucceeds
    cases hsucceeds

/-- Unless the file holds an object, the settings stay as they are; and a file that is harmless then has them
afterwards. -/
theorem load_of_no_table (hv : AreReadable host v) (hfile : files.find? defaultPath = some (.file bytes))
    (hcontent : ∀ entries, Content.ofBytes host bytes ≠ .table entries) :
    ((holding host v).load files defaultPath).settings = holding host v ∧
    ((Content.ofBytes host bytes).IsHarmless host v →
      AreStored host v ((holding host v).load files defaultPath).files) ∧
    (¬ (Content.ofBytes host bytes).IsHarmless host v → ((holding host v).load files defaultPath).fault ≠ none) := by
  cases hc : Content.ofBytes host bytes with
  | notJson =>
    rw [load_notJson hfile hc]
    refine ⟨rfl, ?_, ?_⟩
    · intro hstorable
      rw [store_holding_of_storable hv hstorable hfile]
      exact areStored_put hv hstorable.whole files
    · exact mt (store_holding_eq_none hv hfile).mp
  | table entries => exact absurd hc (hcontent entries)
  | refused fault =>
    rw [load_holding host v hfile, hc]
    exact ⟨rfl, False.elim, fun _ => Option.some_ne_none _⟩

/-- Only a file that is no JSON is rewritten. -/
theorem load_files (hfile : files.find? defaultPath = some (.file bytes))
    (hcontent : Content.ofBytes host bytes ≠ .notJson) : ((holding host v).load files defaultPath).files = files := by
  rw [load_holding host v hfile]
  cases hc : Content.ofBytes host bytes with
  | notJson => exact absurd hc hcontent
  | _ => rfl

end Contents

/-- On every host, loading succeeds, gives values to settings only and leaves settings that can be stored exactly if the
content of the file is harmless: text that is no JSON, or an object that names nothing but settings among what the table
knows, with settings that can be stored in the end. A file without an object leaves the settings unchanged; if it is
harmless, it then has the settings, and otherwise loading fails. -/
theorem loading_is_robust_just_if_harmless {host : Host} {v : String → Json} (hv : AreReadable host v) {files : Files}
    {bytes : Bytes} (hfile : files.find? defaultPath = some (.file bytes)) :
    (LoadsRobustly (holding host v) files ↔ (Content.ofBytes host bytes).IsHarmless host v) ∧
    ((∀ entries, Content.ofBytes host bytes ≠ .table entries) →
      ((holding host v).load files defaultPath).settings = holding host v ∧
      ((Content.ofBytes host bytes).IsHarmless host v →
        AreStored host v ((holding host v).load files defaultPath).files) ∧
      (¬ (Content.ofBytes host bytes).IsHarmless host v → ((holding host v).load files defaultPath).fault ≠ none)) ∧
    (∀ entries, Content.ofBytes host bytes = .table entries → (Content.ofBytes host bytes).IsHarmless host v →
      ((holding host v).load files defaultPath).settings = holding host (overlay v entries) ∧
        AreReadable host (overlay v entries)) ∧
    (Content.ofBytes host bytes ≠ .notJson → ((holding host v).load files defaultPath).files = files) := by
  refine ⟨loadsRobustly_iff hv hfile, load_of_no_table hv hfile, ?_, load_files hfile⟩
  intro entries hcontent hharmless
  rw [hcontent] at hharmless
  rw [load_table hfile hcontent hharmless.1]
  exact ⟨rfl, areReadable_overlay hv hcontent⟩

theorem areReadable_startingOn (host : Host) : AreReadable host (startingOn host).value := by
  have hsize : (Number.digitChars 10).length ≤ Number.digitLimit := by decide
  have hkey : (Number.digitChars 32).length ≤ Number.digitLimit := by decide
  exact forall_mem_names.mpr ⟨.bool true, .bool false, .num hsize, .bool false, .bool false, .num hkey⟩

theorem areStorable_startingOn (host : Host) : AreStorable host (startingOn host).value := by
  refine areStorable_of_flat host (forall_mem_names.mpr ⟨rfl, rfl, rfl, rfl, rfl, rfl⟩) ?_
  refine forall_mem_names.mpr ⟨?_, ?_, ?_, ?_, ?_, ?_⟩ <;> intro text htext <;> cases htext

instance (content : Content) : Decidable (content = .notJson) :=
  match content with
  | .refused _ => isFalse (by intro h; cases h)
  | .notJson => isTrue rfl
  | .table _ => isFalse (by intro h; cases h)

/-- A file that is cut short is replaced by the settings, and these can be loaded again. -/
theorem cut_file_is_replaced :
    LoadsRobustly initial [(defaultPath, .file (bytesOf "\x7b\"text_size\": 1".toList))] ∧
      AreStored .plain initial.value
        (initial.load [(defaultPath, .file (bytesOf "\x7b\"text_size\": 1".toList))] defaultPath).files := by
  have hfile : Files.find? [(defaultPath, .file (bytesOf "\x7b\"text_size\": 1".toList))] defaultPath =
      some (.file (bytesOf "\x7b\"text_size\": 1".toList)) := by decide +kernel
  have hcontent : Content.ofBytes .plain (bytesOf "\x7b\"text_size\": 1".toList) = .notJson := by decide +kernel
  obtain ⟨hrobust, hinvalid, -⟩ := loading_is_robust_just_if_harmless (areReadable_startingOn .plain) hfile
  have hstorable := areStorable_startingOn .plain
  rw [← startingOn_eq_holding, hcontent] at hrobust hinvalid
  exact ⟨hrobust.mpr hstorable, (hinvalid (by intro _ he; cases he)).2.1 hstorable⟩

/-- Bytes that are no text make loading fail, and stay in the file. -/
theorem undecodable_file_stays :
    ¬ LoadsRobustly initial [(defaultPath, .file [0xff])] ∧
      (initial.load [(defaultPath, .file [0xff])] defaultPath).files = [(defaultPath, .file [0xff])] := by
  refine ⟨fun h => absurd h.succeeds ?_, ?_⟩ <;> decide +kernel

end Settings

end PointerScript
