import TriadMesh.Config.Document
import TriadMesh.Proofs.Binary64
import TriadMesh.Proofs.TomlDocument
import TriadMesh.Proofs.TomlProper

/-!
# Configurations survive TOML

A configuration that is in range is written exactly if its counts fit 63 bits, and then the text is read as the same
configuration, bit for bit (`toml_survival`). What is shown about writing and reading holds for any sections; only that
they are the whole configuration is read off the schema.
-/

namespace TriadMesh.Config

open Toml

variable {c d : Config} {s : Setting} {settings : List Setting} {sections : List Section} {chars rest : List Char}
  {ss : List Statement}

/-! ## Values of settings -/

/-- The value that a setting is written as. -/
def Setting.toValue (c : Config) : Setting → Value
  | float _ get _ => .float (get c)
  | text _ get _ => .text (get c)
  | count _ get _ => .integer (get c)
  | flag _ get _ => .flag (get c)

/-- TOML can hold the value. -/
def Setting.Fits (c : Config) : Setting → Prop
  | count _ get _ => get c < 2 ^ 63
  | _ => True

def Setting.IsFinite (c : Config) : Setting → Prop
  | float _ get _ => (get c).isFinite = true
  | _ => True

/-- The configuration `d` with the value that the setting has in `c`. -/
def Setting.copy (c d : Config) : Setting → Config
  | float _ get set => set (get c) d
  | text _ get set => set (get c) d
  | count _ get set => set (get c) d
  | flag _ get set => set (get c) d

theorem Setting.isSome_render?_iff : (s.render? c).isSome ↔ s.Fits c := by
  cases s with
  | count key get set =>
    rw [render?, Fits]
    split <;> simp_all
  | float | text | flag => exact ⟨fun _ => trivial, fun _ => rfl⟩

/-- What is written for a setting is read as its value. -/
theorem Setting.reads (hfinite : s.IsFinite c) (hchars : s.render? c = some chars) : Reads chars (s.toValue c) := by
  cases s with
  | float key get set =>
    cases hchars
    exact reads_float hfinite
  | text key get set =>
    cases hchars
    exact reads_text _
  | count key get set =>
    rw [render?] at hchars
    split at hchars
    case isTrue hfits =>
      cases hchars
      exact reads_count hfits
    case isFalse => cases hchars
  | flag key get set =>
    cases hchars
    exact reads_flag _

theorem Setting.read?_toValue (c d : Config) (s : Setting) :
    s.read? tomlReader (s.toValue c) d = some (s.copy c d) := by
  cases s <;> rfl

/-! ## Sections as tables -/

/-- All keys can be written without quotes, and no two settings have the same one. -/
structure Section.IsPlain (s : Section) : Prop where
  isBare : IsBare s.key
  isBare_setting : ∀ t ∈ s.settings, IsBare t.key
  nodup : (s.settings.map Setting.key).Nodup

instance (s : Section) : Decidable s.IsPlain :=
  decidable_of_iff (IsBare s.key ∧ (∀ t ∈ s.settings, IsBare t.key) ∧ (s.settings.map Setting.key).Nodup)
    ⟨fun h => ⟨h.1, h.2.1, h.2.2⟩, fun h => ⟨h.isBare, h.isBare_setting, h.nodup⟩⟩

def Section.toTable (c : Config) (s : Section) : String × List (String × Value) :=
  (s.key, s.settings.map fun t => (t.key, t.toValue c))

theorem Section.keys_toTable (s : Section) : (s.toTable c).2.map (·.1) = s.settings.map Setting.key := by
  rw [toTable, List.map_map]
  rfl

theorem keys_toTable (sections : List Section) :
    (sections.map (Section.toTable c)).map (·.1) = sections.map Section.key := by
  rw [List.map_map]
  rfl

/-! ## Writing -/

theorem isSome_renderSettings?_iff : (renderSettings? c settings).isSome ↔ ∀ s ∈ settings, s.Fits c := by
  induction settings with
  | nil => simp [renderSettings?]
  | cons s settings ih =>
    rw [List.forall_mem_cons, ← Setting.isSome_render?_iff, ← ih, renderSettings?]
    cases s.render? c <;> cases renderSettings? c settings <;> simp

theorem Section.isSome_render?_iff {s : Section} : (s.render? c).isSome ↔ ∀ t ∈ s.settings, t.Fits c := by
  rw [render?, Option.isSome_map, isSome_renderSettings?_iff]

theorem isSome_renderSections?_iff :
    (renderSections? c sections).isSome ↔ ∀ s ∈ sections, ∀ t ∈ s.settings, t.Fits c := by
  induction sections with
  | nil => simp [renderSections?]
  | cons s sections ih =>
    rw [List.forall_mem_cons, ← Section.isSome_render?_iff, ← ih]
    cases sections with
    | nil => exact (and_iff_left rfl).symm
    | cons t sections =>
      rw [renderSections?]
      · cases s.render? c <;> cases renderSections? c (t :: sections) <;> simp
      · exact List.cons_ne_nil t sections

theorem yields_settings (hrest : Yields rest ss) (hkeys : ∀ s ∈ settings, IsBare s.key)
    (hfinite : ∀ s ∈ settings, s.IsFinite c) (hchars : renderSettings? c settings = some chars) :
    Yields (chars ++ rest) (settings.map (fun t => .assign [] t.key (t.toValue c)) ++ ss) := by
  induction settings generalizing chars with
  | nil =>
    cases hchars
    exact hrest
  | cons s settings ih =>
    rw [renderSettings?] at hchars
    obtain ⟨value, hvalue, hchars⟩ := Option.bind_eq_some_iff.1 hchars
    obtain ⟨more, hmore, hchars⟩ := Option.bind_eq_some_iff.1 hchars
    cases hchars
    rw [List.forall_mem_cons] at hkeys hfinite
    have hline := (ih hkeys.2 hfinite.2 hmore).assign hkeys.1 (Setting.reads hfinite.1 hvalue)
    simpa using hline

theorem Section.yields {s : Section} (hrest : Yields rest ss) (hs : s.IsPlain)
    (hfinite : ∀ t ∈ s.settings, t.IsFinite c) (hchars : s.render? c = some chars) :
    Yields (chars ++ rest) (tableStatements (s.toTable c) ++ ss) := by
  obtain ⟨lines, hlines, rfl⟩ := Option.map_eq_some_iff.1 hchars
  have hheader := (yields_settings hrest hs.isBare_setting hfinite hlines).header hs.isBare
  simpa [tableStatements, toTable, Function.comp_def] using hheader

theorem yields_sections (hplain : ∀ s ∈ sections, s.IsPlain) (hfinite : ∀ s ∈ sections, ∀ t ∈ s.settings, t.IsFinite c)
    (hchars : renderSections? c sections = some chars) :
    Yields chars ((sections.map (Section.toTable c)).flatMap tableStatements) := by
  induction sections generalizing chars with
  | nil =>
    cases hchars
    exact yields_nil
  | cons s sections ih =>
    rw [List.forall_mem_cons] at hplain hfinite
    cases sections with
    | nil => simpa using Section.yields yields_nil hplain.1 hfinite.1 hchars
    | cons t sections =>
      rw [renderSections?] at hchars
      · obtain ⟨first, hfirst, hchars⟩ := Option.bind_eq_some_iff.1 hchars
        obtain ⟨more, hmore, hchars⟩ := Option.bind_eq_some_iff.1 hchars
        cases hchars
        exact Section.yields (ih hplain.2 hfinite.2 hmore).blankLine hplain.1 hfinite.1 hfirst
      · exact List.cons_ne_nil t sections

/-- The text of sections begins with a bracket, if there is any. -/
theorem head?_ne_of_renderSections? {mark : Char} (hmark : mark ≠ '[')
    (hchars : renderSections? c sections = some chars) : chars.head? ≠ some mark := by
  have hsection : ∀ {s : Section} {lines}, s.render? c = some lines → lines.head? = some '[' := by
    intro s lines hlines
    obtain ⟨more, -, rfl⟩ := Option.map_eq_some_iff.1 hlines
    rfl
  unfold renderSections? at hchars
  split at hchars
  case h_1 =>
    cases hchars
    exact fun heq => nomatch heq
  case h_2 s =>
    rw [hsection hchars]
    exact fun heq => hmark (Option.some.inj heq).symm
  case h_3 =>
    obtain ⟨first, hfirst, hchars⟩ := Option.bind_eq_some_iff.1 hchars
    obtain ⟨more, -, hchars⟩ := Option.bind_eq_some_iff.1 hchars
    cases hchars
    rw [List.head?_append, hsection hfirst]
    exact fun heq => hmark (Option.some.inj heq).symm

/-- Written sections are read as their tables. -/
theorem parse?_of_renderSections? (hnodup : (sections.map Section.key).Nodup) (hplain : ∀ s ∈ sections, s.IsPlain)
    (hfinite : ∀ s ∈ sections, ∀ t ∈ s.settings, t.IsFinite c) (hchars : renderSections? c sections = some chars) :
    parse? (String.ofList chars) =
      some (.table ((sections.map (Section.toTable c)).map fun t => (t.1, .table t.2))) := by
  rw [parse?_of_yields (head?_ne_of_renderSections? (by decide) hchars) (yields_sections hplain hfinite hchars)]
  refine ofStatements?_tables ((keys_toTable sections).symm ▸ hnodup) fun t ht => ?_
  obtain ⟨s, hs, rfl⟩ := List.mem_map.1 ht
  exact s.keys_toTable.symm ▸ (hplain s hs).nodup

/-! ## Reading -/

theorem readSettings?_toValue (c d : Config) (settings : List Setting) :
    readSettings? tomlReader (settings.zip (settings.map fun s => some (s.toValue c))) d =
      some (settings.foldl (Setting.copy c) d) := by
  induction settings generalizing d with
  | nil => rfl
  | cons s settings ih =>
    rw [List.map_cons, List.zip_cons_cons, readSettings?, Setting.read?_toValue, List.foldl_cons]
    exact ih (s.copy c d)

theorem readSections?_toTable (hplain : ∀ s ∈ sections, s.IsPlain) (d : Config) :
    readSections? tomlReader (sections.zip (sections.map fun s => some (.table (s.toTable c).2))) d =
      some (sections.foldl (fun d s => s.settings.foldl (Setting.copy c) d) d) := by
  induction sections generalizing d with
  | nil => rfl
  | cons s sections ih =>
    rw [List.forall_mem_cons] at hplain
    have hfields : tomlReader.fields? (s.settings.map Setting.key) (.table (s.toTable c).2) =
        some (s.settings.map fun t => some (t.toValue c)) := by
      have hvalues : (Value.table (s.toTable c).2).fields? _ = _ :=
        Value.fields?_of_nodup (s.keys_toTable.symm ▸ hplain.1.nodup)
      rw [s.keys_toTable] at hvalues
      exact hvalues.trans (congrArg some List.map_map)
    rw [List.map_cons, List.zip_cons_cons, readSections?, hfields]
    change (readSettings? tomlReader (s.settings.zip _) d >>= _) = _
    rw [readSettings?_toValue]
    exact ih hplain.2 _

/-! ## The schema -/

theorem isPlain_of_mem_schema : ∀ s ∈ schema, s.IsPlain := by decide

theorem nodup_schema : (schema.map Section.key).Nodup := by decide

/-- The settings of the schema are a whole configuration. -/
theorem foldl_copy_schema (c d : Config) : schema.foldl (fun d s => s.settings.foldl (Setting.copy c) d) d = c := by
  cases c
  cases d
  rfl

/-- TOML can hold all settings. -/
def Fits (c : Config) : Prop := ∀ s ∈ schema, ∀ t ∈ s.settings, t.Fits c

theorem fits_iff : c.Fits ↔ c.queueCapacity < 2 ^ 63 ∧ c.maxInFlight < 2 ^ 63 ∧ c.seenCapacity < 2 ^ 63 := by
  simp [Fits, schema, Setting.Fits]

theorem isFinite_of_check (hvalid : c.check = .ok ()) : ∀ s ∈ schema, ∀ t ∈ s.settings, t.IsFinite c := by
  have hranges := violation?_eq_none_iff.1 (check_eq_ok_iff.1 hvalid)
  simp only [conditions, List.forall_mem_cons] at hranges
  obtain ⟨hquality, hcardinal, hvariance, -, hnoise, -⟩ := hranges
  have hquality := Binary64.isFinite_of_inUnitInterval hquality
  have hcardinal := Binary64.isFinite_of_inUnitInterval hcardinal
  have hvariance := (Bool.and_eq_true_iff.1 hvariance).1
  have hnoise := (Bool.and_eq_true_iff.1 hnoise).1
  simp [schema, Setting.IsFinite, hquality, hcardinal, hvariance, hnoise]

/-- The tables of the schema are read as the configuration that they were made of. -/
theorem read?_toTable (c : Config) :
    read? tomlReader (.table ((schema.map (Section.toTable c)).map fun t => (t.1, .table t.2))) = some c := by
  generalize hentries : ((schema.map (Section.toTable c)).map fun t => (t.1, Value.table t.2)) = entries
  have hkeys : entries.map (·.1) = schema.map Section.key := by
    rw [← hentries, List.map_map]
    exact keys_toTable schema
  have hvalues : entries.map (fun p => some p.2) = schema.map fun s => some (.table (s.toTable c).2) := by
    rw [← hentries, List.map_map, List.map_map]
    rfl
  have hfields : tomlReader.fields? (schema.map Section.key) (.table entries) =
      some (schema.map fun s => some (.table (s.toTable c).2)) := by
    rw [← hkeys, ← hvalues]
    exact Value.fields?_of_nodup (hkeys.symm ▸ nodup_schema)
  rw [read?, hfields]
  exact (readSections?_toTable isPlain_of_mem_schema default).trans (congrArg some (foldl_copy_schema c default))

/-! ## The text of a configuration -/

theorem exists_toToml_iff : (∃ text, c.toToml = .ok text) ↔ c.Fits := by
  rw [Fits, ← isSome_renderSections?_iff, toToml]
  cases renderSections? c schema <;> simp

/-- The text of a configuration in range is read as the configuration. -/
theorem ofToml_of_toToml {text : String} (hvalid : c.check = .ok ()) (htext : c.toToml = .ok text) :
    ofToml text = .ok c := by
  unfold toToml at htext
  split at htext
  case h_2 => cases htext
  case h_1 chars hchars =>
    cases htext
    have hparse := parse?_of_renderSections? nodup_schema isPlain_of_mem_schema (isFinite_of_check hvalid) hchars
    have hread : ofTomlUnchecked? (String.ofList chars) = some c := by
      rw [ofTomlUnchecked?, hparse, Option.bind_some, read?_toTable]
    rw [ofToml, hread]
    dsimp only
    rw [check_eq_ok_iff.1 hvalid]

/-! ## Configurations that were read -/

/-- Reading the setting keeps what is known of a configuration, if only counts of 63 bits are read. -/
def Setting.Keeps (P : Config → Prop) : Setting → Prop
  | float _ _ set => ∀ x c, P c → P (set x c)
  | text _ _ set => ∀ x c, P c → P (set x c)
  | count _ _ set => ∀ n c, n < 2 ^ 63 → P c → P (set n c)
  | flag _ _ set => ∀ x c, P c → P (set x c)

variable {P : Config → Prop} {v : Value}

theorem Setting.Keeps.read? (h : s.Keeps P) (hv : v.Proper) (hc : P c) (hread : s.read? tomlReader v c = some d) :
    P d := by
  cases s with
  | float | text | flag =>
    obtain ⟨x, -, rfl⟩ := Option.map_eq_some_iff.1 hread
    exact h x c hc
  | count =>
    obtain ⟨n, hn, rfl⟩ := Option.map_eq_some_iff.1 hread
    exact h n c (hv.toNat? hn) hc

theorem keeps_readSettings? {pairs : List (Setting × Option Value)} (hkeeps : ∀ p ∈ pairs, p.1.Keeps P)
    (hproper : ∀ p ∈ pairs, ∀ v, p.2 = some v → v.Proper) (hc : P c)
    (hread : readSettings? tomlReader pairs c = some d) : P d := by
  induction pairs generalizing c with
  | nil =>
    cases hread
    exact hc
  | cons p pairs ih =>
    rw [List.forall_mem_cons] at hkeeps hproper
    obtain ⟨s, _ | v⟩ := p
    · exact ih hkeeps.2 hproper.2 hc hread
    · obtain ⟨e, he, hread⟩ := Option.bind_eq_some_iff.1 hread
      exact ih hkeeps.2 hproper.2 (hkeeps.1.read? (hproper.1 v rfl) hc he) hread

theorem keeps_readSections? {pairs : List (Section × Option Value)}
    (hkeeps : ∀ p ∈ pairs, ∀ t ∈ p.1.settings, t.Keeps P) (hproper : ∀ p ∈ pairs, ∀ v, p.2 = some v → v.Proper)
    (hc : P c) (hread : readSections? tomlReader pairs c = some d) : P d := by
  induction pairs generalizing c with
  | nil =>
    cases hread
    exact hc
  | cons p pairs ih =>
    rw [List.forall_mem_cons] at hkeeps hproper
    obtain ⟨s, _ | v⟩ := p
    · exact ih hkeeps.2 hproper.2 hc hread
    · obtain ⟨values, hvalues, hread⟩ := Option.bind_eq_some_iff.1 hread
      obtain ⟨e, he, hread⟩ := Option.bind_eq_some_iff.1 hread
      refine ih hkeeps.2 hproper.2 (keeps_readSettings? (fun p hp => ?_) (fun p hp v hv => ?_) hc he) hread
      · exact hkeeps.1 _ (List.of_mem_zip hp).1
      · exact (hproper.1 _ rfl).fields? hvalues v (hv ▸ (List.of_mem_zip hp).2)

theorem keeps_fits_of_mem_schema : ∀ s ∈ schema, ∀ t ∈ s.settings, t.Keeps Fits := by
  simp +contextual [schema, Setting.Keeps, fits_iff]

theorem fits_of_ofTomlUnchecked? {text : String} (h : ofTomlUnchecked? text = some c) : c.Fits := by
  obtain ⟨v, hparse, hread⟩ := Option.bind_eq_some_iff.1 h
  obtain ⟨values, hvalues, hread⟩ := Option.bind_eq_some_iff.1 hread
  have hdefault : Config.default.Fits := fits_iff.2 (by decide)
  refine keeps_readSections? (fun p hp => keeps_fits_of_mem_schema _ (List.of_mem_zip hp).1) (fun p hp v hv => ?_)
    hdefault hread
  exact (proper_of_parse? hparse).fields? hvalues v (hv ▸ (List.of_mem_zip hp).2)

theorem ofToml_eq_ok_iff {text : String} : ofToml text = .ok c ↔ ofTomlUnchecked? text = some c ∧ c.check = .ok () := by
  rw [check_eq_ok_iff]
  unfold ofToml
  cases ofTomlUnchecked? text with
  | none => exact ⟨nofun, nofun⟩
  | some d =>
    dsimp only
    cases hd : d.violation? with
    | none =>
      constructor
      · rintro ⟨⟩
        exact ⟨rfl, hd⟩
      · rintro ⟨⟨⟩, -⟩
        rfl
    | some v =>
      refine ⟨nofun, ?_⟩
      rintro ⟨⟨⟩, hnone⟩
      rw [hd] at hnone
      cases hnone

/-- A configuration in range can be written exactly if its counts fit 63 bits, and its text is read as the
configuration. Every configuration that was read can be written, and is read again from what is written. -/
theorem toml_survival :
    (∀ c : Config, c.check = .ok () →
      ((∃ text, c.toToml = .ok text) ↔
        c.queueCapacity ≤ 2 ^ 63 - 1 ∧ c.maxInFlight ≤ 2 ^ 63 - 1 ∧ c.seenCapacity ≤ 2 ^ 63 - 1) ∧
      ∀ text, c.toToml = .ok text → ofToml text = .ok c) ∧
    ∀ source c, ofToml source = .ok c → ∃ text, c.toToml = .ok text ∧ ofToml text = .ok c := by
  refine ⟨fun c hvalid => ⟨?_, fun text => ofToml_of_toToml hvalid⟩, fun source c hread => ?_⟩
  · rw [exists_toToml_iff, fits_iff]
    omega
  obtain ⟨hunchecked, hvalid⟩ := ofToml_eq_ok_iff.1 hread
  obtain ⟨text, htext⟩ := exists_toToml_iff.2 (fits_of_ofTomlUnchecked? hunchecked)
  exact ⟨text, htext, ofToml_of_toToml hvalid htext⟩

/-- Quotes of both kinds, line breaks and a control character, an empty text, and a zero with a sign. -/
def quotes : Config :=
  { default with
    metric := "\n\"\"\"\x27\x27\x27\\\x07\r\n", level := "", varianceThreshold := Binary64.zero true }

theorem toml_survival_quotes :
    quotes.check = .ok () ∧ ∃ text, quotes.toToml = .ok text ∧ ofToml text = .ok quotes := by
  have hvalid : quotes.check = .ok () := by decide +kernel
  obtain ⟨hwritten, hread⟩ := toml_survival.1 quotes hvalid
  obtain ⟨text, htext⟩ := hwritten.2 (by decide)
  exact ⟨hvalid, text, htext, hread text htext⟩

end TriadMesh.Config
