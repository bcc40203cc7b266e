import TriadMesh.Toml.Parser

/-!
# What every document keeps to

In a document that a text is read as every integer fits 64 bits with a sign, and no table has a key twice
(`proper_of_parse?`). Integers come from scalars only, and these are refused if they are out of range; arrays, tables
and documents put together values that were read before. A table gets an entry with a new key, or one in the place of the
entry with the same key.
-/

namespace TriadMesh.Toml

/-- Every integer in the value fits 64 bits with a sign, and no table has a key twice. -/
inductive Value.Proper : Value → Prop
  | text (s : String) : Proper (.text s)
  | integer {n : Int} (h : -2 ^ 63 ≤ n ∧ n < 2 ^ 63) : Proper (.integer n)
  | float (x : Binary64) : Proper (.float x)
  | flag (b : Bool) : Proper (.flag b)
  | date : Proper .date
  | array {items : List Value} (h : ∀ v ∈ items, Proper v) : Proper (.array items)
  | table {entries : List (String × Value)} (hkeys : (entries.map (·.1)).Nodup) (h : ∀ p ∈ entries, Proper p.2) :
      Proper (.table entries)

/-- Every value of the entry is proper, and no table in it has a key twice. -/
inductive Entry.Proper : Entry → Prop
  | value {v : Value} (h : v.Proper) : Proper (.value v)
  | table {implicit dotted : Bool} {entries : List (String × Entry)} (hkeys : (entries.map (·.1)).Nodup)
      (h : ∀ p ∈ entries, Proper p.2) : Proper (.table implicit dotted entries)
  | tables {rows : List (List (String × Entry))} (hkeys : ∀ r ∈ rows, (r.map (·.1)).Nodup)
      (h : ∀ r ∈ rows, ∀ p ∈ r, Proper p.2) : Proper (.tables rows)

/-- Every entry of the table is proper, and no key is there twice. -/
structure Table.Proper (t : Table) : Prop where
  keys : (t.entries.map (·.1)).Nodup
  entries : ∀ p ∈ t.entries, p.2.Proper

variable {v : Value} {e : Entry} {t u : Table} {text rest : List Char} {negative : Bool} {key : String}
  {path : List String}

/-! ## Scalars -/

theorem proper_of_integer? {n : Int} (h : integer? n = some v) : v.Proper := by
  unfold integer? at h
  split at h
  case isTrue hn =>
    cases h
    exact .integer hn
  case isFalse => cases h

theorem proper_of_float? {whole places : List Char} {e : Int} (h : float? negative whole places e = some v) :
    v.Proper := by
  unfold float? at h
  dsimp only at h
  split at h
  case isTrue => cases h
  case isFalse =>
    cases h
    exact .float _

theorem proper_of_decimal? (h : decimal? negative text = some v) : v.Proper := by
  unfold decimal? at h
  obtain ⟨whole, -, h⟩ := Option.bind_eq_some_iff.1 h
  split at h
  case h_1 => exact proper_of_integer? h
  case h_2 =>
    obtain ⟨places, -, h⟩ := Option.bind_eq_some_iff.1 h
    obtain ⟨e, -, h⟩ := Option.bind_eq_some_iff.1 h
    exact proper_of_float? h
  case h_3 =>
    obtain ⟨e, -, h⟩ := Option.bind_eq_some_iff.1 h
    exact proper_of_float? h

theorem proper_of_signed? (h : signed? negative text = some v) : v.Proper := by
  unfold signed? at h
  split at h
  case isTrue =>
    cases h
    exact .float _
  case isFalse =>
    split at h
    case isTrue =>
      cases h
      exact .float _
    case isFalse => exact proper_of_decimal? h

theorem proper_of_word? (h : word? text = some v) : v.Proper := by
  have hbased : ∀ {digits : Option (List Char)} {number : List Char → Int},
      (digits.bind fun ds => integer? (number ds)) = some v → v.Proper := by
    intro digits number hbind
    obtain ⟨ds, -, hbind⟩ := Option.bind_eq_some_iff.1 hbind
    exact proper_of_integer? hbind
  unfold word? at h
  split at h
  case h_1 | h_2 =>
    cases h
    exact .flag _
  case h_3 | h_4 | h_5 => exact hbased h
  case h_6 | h_7 | h_8 => exact proper_of_signed? h

theorem proper_of_scanScalar? (h : scanScalar? text = some (v, rest)) : v.Proper := by
  unfold scanScalar? at h
  split at h
  case h_1 =>
    obtain ⟨r, -, heq⟩ := Option.map_eq_some_iff.1 h
    cases heq
    exact .date
  case h_2 =>
    obtain ⟨w, hword, heq⟩ := Option.map_eq_some_iff.1 h
    cases heq
    exact proper_of_word? hword

/-! ## Tables -/

theorem Table.proper_nil (implicit dotted : Bool) : Table.Proper ⟨implicit, dotted, []⟩ :=
  ⟨List.nodup_nil, fun _ hp => absurd hp List.not_mem_nil⟩

theorem Table.Proper.entry (h : t.Proper) : t.entry.Proper := .table h.keys h.entries

theorem Table.Proper.find? (h : t.Proper) (hfind : t.find? key = some e) : e.Proper := by
  obtain ⟨p, hp, rfl⟩ := Option.map_eq_some_iff.1 hfind
  exact h.entries p (List.mem_of_find?_eq_some hp)

theorem Table.not_mem_keys (hfind : t.find? key = none) : key ∉ t.entries.map (·.1) := by
  intro hmem
  obtain ⟨p, hp, rfl⟩ := List.mem_map.1 hmem
  have hnone := List.find?_eq_none.1 (Option.map_eq_none_iff.1 hfind) p hp
  exact hnone (beq_self_eq_true p.1)

theorem Table.Proper.put (h : t.Proper) (he : e.Proper) : (t.put key e).Proper := by
  unfold Table.put
  split
  case isTrue =>
    refine ⟨?_, fun p hp => ?_⟩
    · have hsame : (t.entries.map fun p => if p.1 == key then (key, e) else p).map (·.1) = t.entries.map (·.1) := by
        rw [List.map_map]
        refine List.map_congr_left fun p _ => ?_
        rw [Function.comp_apply]
        split
        case isTrue heq => exact (eq_of_beq heq).symm
        case isFalse => rfl
      exact hsame.symm ▸ h.keys
    · obtain ⟨q, hq, rfl⟩ := List.mem_map.1 hp
      split
      case isTrue => exact he
      case isFalse => exact h.entries q hq
  case isFalse hnew =>
    have hkey : key ∉ t.entries.map (·.1) :=
      Table.not_mem_keys (Option.not_isSome_iff_eq_none.1 hnew)
    refine ⟨?_, fun p hp => ?_⟩
    · rw [List.map_append]
      refine List.nodup_append.2 ⟨h.keys, by simp, fun a ha b hb hab => hkey ?_⟩
      obtain rfl : b = key := List.mem_singleton.1 hb
      exact hab ▸ ha
    · rcases List.mem_append.1 hp with hp | hp
      · exact h.entries p hp
      · obtain rfl := List.mem_singleton.1 hp
        exact he

theorem Table.Proper.erase (h : t.Proper) : (t.erase key).Proper :=
  ⟨h.keys.sublist (List.filter_sublist.map _), fun p hp => h.entries p (List.mem_filter.1 hp).1⟩

/-- What holds at the end of a path holds on the way there. -/
theorem Table.Proper.descend {α : Type} {dotted : Bool} {f : Table → Option (Table × α)} {P : α → Prop} {a : α}
    (hf : ∀ {t u a}, t.Proper → f t = some (u, a) → u.Proper ∧ P a) (h : t.Proper)
    (hdescend : Table.descend dotted f path t = some (u, a)) : u.Proper ∧ P a := by
  -- Each step of the path goes on in a proper table, and the result is put back into the one before.
  induction path generalizing t u with
  | nil => exact hf h hdescend
  | cons key path ih =>
    unfold Table.descend at hdescend
    split at hdescend
    case h_1 =>
      obtain ⟨⟨inner, b⟩, hinner, heq⟩ := Option.map_eq_some_iff.1 hdescend
      cases heq
      obtain ⟨hproper, ha⟩ := ih (Table.proper_nil true dotted) hinner
      exact ⟨h.put hproper.entry, ha⟩
    case h_2 => cases hdescend
    case h_3 implicit dot entries hfind =>
      split at hdescend
      case isTrue => cases hdescend
      case isFalse =>
        obtain ⟨⟨inner, b⟩, hinner, heq⟩ := Option.map_eq_some_iff.1 hdescend
        cases heq
        cases h.find? hfind with
        | table hkeys hentries =>
          obtain ⟨hproper, ha⟩ := ih ⟨hkeys, hentries⟩ hinner
          exact ⟨h.put hproper.entry, ha⟩
    case h_4 rows hfind =>
      split at hdescend
      case h_1 => cases hdescend
      case h_2 row hlast =>
        obtain ⟨⟨inner, b⟩, hinner, heq⟩ := Option.map_eq_some_iff.1 hdescend
        cases heq
        cases h.find? hfind with
        | tables hkeys hrows =>
          have hrow := List.mem_of_getLast? hlast
          obtain ⟨hproper, ha⟩ := ih ⟨hkeys row hrow, hrows row hrow⟩ hinner
          have hbefore := List.dropLast_subset rows
          refine ⟨h.put (.tables ?_ ?_), ha⟩
          · exact List.forall_mem_append.2
              ⟨fun r hr => hkeys r (hbefore hr), List.forall_mem_singleton.2 hproper.keys⟩
          · exact List.forall_mem_append.2
              ⟨fun r hr => hrows r (hbefore hr), List.forall_mem_singleton.2 hproper.entries⟩

theorem Table.Proper.assign? (h : t.Proper) (hv : v.Proper) (hassign : t.assign? path key v = some u) : u.Proper := by
  obtain ⟨⟨inner, a⟩, hinner, rfl⟩ := Option.map_eq_some_iff.1 hassign
  refine (h.descend (P := fun _ => True) (fun {t w a} ht hput => ?_) hinner).1
  split at hput
  case isTrue => cases hput
  case isFalse =>
    cases hput
    exact ⟨ht.put (.value hv), trivial⟩

theorem keys_valuesOf (entries : List (String × Entry)) : (valuesOf entries).map (·.1) = entries.map (·.1) := by
  induction entries with
  | nil => rfl
  | cons p entries ih => rw [valuesOf, List.map_cons, ih, List.map_cons]

mutual

theorem Entry.Proper.toValue : ∀ {e : Entry}, e.Proper → e.toValue.Proper
  | .value _, .value h => h
  | .table _ _ entries, .table hkeys h => .table ((keys_valuesOf entries).symm ▸ hkeys) (proper_valuesOf h)
  | .tables _, .tables hkeys h => .array (proper_rowsOf hkeys h)

theorem proper_valuesOf : ∀ {entries : List (String × Entry)}, (∀ p ∈ entries, p.2.Proper) →
    ∀ p ∈ valuesOf entries, p.2.Proper
  | [], _ => by simp [valuesOf]
  | (k, e) :: entries, h => by
    rw [valuesOf, List.forall_mem_cons]
    rw [List.forall_mem_cons] at h
    exact ⟨h.1.toValue, proper_valuesOf h.2⟩

theorem proper_rowsOf : ∀ {rows : List (List (String × Entry))}, (∀ r ∈ rows, (r.map (·.1)).Nodup) →
    (∀ r ∈ rows, ∀ p ∈ r, p.2.Proper) → ∀ v ∈ rowsOf rows, v.Proper
  | [], _, _ => by simp [rowsOf]
  | r :: rows, hkeys, h => by
    rw [rowsOf, List.forall_mem_cons]
    rw [List.forall_mem_cons] at hkeys h
    exact ⟨.table ((keys_valuesOf r).symm ▸ hkeys.1) (proper_valuesOf h.1), proper_rowsOf hkeys.2 h.2⟩

end

theorem Table.Proper.toValue (h : t.Proper) : (Value.table (valuesOf t.entries)).Proper :=
  .table ((keys_valuesOf t.entries).symm ▸ h.keys) (proper_valuesOf h.entries)

/-- What each step preserves holds at the end. -/
theorem foldlM_preserves {α β : Type} {f : β → α → Option β} {P : β → Prop} {items : List α} {b b' : β}
    (hstep : ∀ a ∈ items, ∀ {b b'}, P b → f b a = some b' → P b') (hb : P b) (hfold : items.foldlM f b = some b') :
    P b' := by
  induction items generalizing b with
  | nil =>
    cases hfold
    exact hb
  | cons a items ih =>
    rw [List.foldlM_cons] at hfold
    obtain ⟨c, hc, hfold⟩ := Option.bind_eq_some_iff.1 hfold
    rw [List.forall_mem_cons] at hstep
    exact ih hstep.2 (hstep.1 hb hc) hfold

theorem proper_of_inlineTable? {pairs : List (List String × String × Value)} (hpairs : ∀ p ∈ pairs, p.2.2.Proper)
    (h : inlineTable? pairs = some v) : v.Proper := by
  obtain ⟨t, hfold, rfl⟩ := Option.map_eq_some_iff.1 h
  exact (foldlM_preserves (fun p hp _ _ ht hassign => Table.Proper.assign? ht (hpairs p hp) hassign)
    (Table.proper_nil false false) hfold).toValue

/-! ## Values -/

/-- What is read with some fuel is proper. -/
structure Fitting (fuel : Nat) : Prop where
  value : ∀ {depth text v rest}, scanValue fuel depth text = some (v, rest) → v.Proper
  items : ∀ {depth text vs rest}, scanItems fuel depth text = some (vs, rest) → ∀ v ∈ vs, v.Proper
  pairs : ∀ {depth text ps rest}, scanPairs fuel depth text = some (ps, rest) → ∀ p ∈ ps, p.2.2.Proper

variable {fuel depth : Nat}

theorem Fitting.value_succ (h : Fitting fuel) (hscan : scanValue (fuel + 1) depth text = some (v, rest)) :
    v.Proper := by
  unfold scanValue at hscan
  split at hscan
  case h_1 | h_2 =>
    obtain ⟨s, -, heq⟩ := Option.map_eq_some_iff.1 hscan
    cases heq
    exact .text _
  case h_3 =>
    split at hscan
    case isTrue =>
      obtain ⟨⟨vs, tail⟩, hitems, heq⟩ := Option.map_eq_some_iff.1 hscan
      cases heq
      exact .array (h.items hitems)
    case isFalse => cases hscan
  case h_4 =>
    split at hscan
    case isTrue =>
      split at hscan
      case h_1 =>
        cases hscan
        exact (Table.proper_nil false false).toValue
      case h_2 =>
        obtain ⟨⟨ps, tail⟩, hpairs, hscan⟩ := Option.bind_eq_some_iff.1 hscan
        obtain ⟨w, htable, heq⟩ := Option.map_eq_some_iff.1 hscan
        cases heq
        exact proper_of_inlineTable? (h.pairs hpairs) htable
    case isFalse => cases hscan
  case h_5 => exact proper_of_scanScalar? hscan

theorem Fitting.items_succ (h : Fitting fuel) {vs : List Value}
    (hscan : scanItems (fuel + 1) depth text = some (vs, rest)) : ∀ v ∈ vs, v.Proper := by
  unfold scanItems at hscan
  split at hscan
  case h_1 => cases hscan
  case h_2 =>
    cases hscan
    simp
  case h_3 =>
    split at hscan
    case h_1 => cases hscan
    case h_2 v _ hvalue =>
      split at hscan
      case h_1 =>
        cases hscan
        exact List.forall_mem_singleton.2 (h.value hvalue)
      case h_2 =>
        obtain ⟨⟨more, tail⟩, hitems, heq⟩ := Option.map_eq_some_iff.1 hscan
        cases heq
        exact List.forall_mem_cons.2 ⟨h.value hvalue, h.items hitems⟩
      case h_3 => cases hscan

theorem Fitting.pairs_succ (h : Fitting fuel) {ps : List (List String × String × Value)}
    (hscan : scanPairs (fuel + 1) depth text = some (ps, rest)) : ∀ p ∈ ps, p.2.2.Proper := by
  unfold scanPairs at hscan
  split at hscan
  case h_2 => cases hscan
  case h_1 =>
    split at hscan
    case h_1 => cases hscan
    case h_2 v _ hvalue =>
      split at hscan
      case h_1 =>
        cases hscan
        exact List.forall_mem_singleton.2 (h.value hvalue)
      case h_2 =>
        obtain ⟨⟨more, tail⟩, hpairs, heq⟩ := Option.map_eq_some_iff.1 hscan
        cases heq
        exact List.forall_mem_cons.2 ⟨h.value hvalue, h.pairs hpairs⟩
      case h_3 => cases hscan

theorem fitting (fuel : Nat) : Fitting fuel := by
  induction fuel with
  | zero => exact ⟨nofun, nofun, nofun⟩
  | succ fuel ih => exact ⟨ih.value_succ, ih.items_succ, ih.pairs_succ⟩

/-! ## Documents -/

/-- The value of the statement is proper, if it has one. -/
def Statement.Proper : Statement → Prop
  | assign _ _ v => v.Proper
  | header _ _ | arrayHeader _ _ => True

variable {s : Statement} {ss : List Statement} {d d' : Document}

theorem proper_of_scanStatement? (h : scanStatement? text = some (s, rest)) : s.Proper := by
  unfold scanStatement? at h
  split at h
  case h_1 | h_2 =>
    split at h
    case h_2 => cases h
    case h_1 =>
      obtain ⟨r, -, heq⟩ := Option.map_eq_some_iff.1 h
      cases heq
      trivial
  case h_3 =>
    split at h
    case h_2 => cases h
    case h_1 =>
      split at h
      case h_2 => cases h
      case h_1 v _ hvalue =>
        obtain ⟨r, -, heq⟩ := Option.map_eq_some_iff.1 h
        cases heq
        exact (fitting _).value hvalue

theorem proper_of_scanStatements (h : scanStatements fuel text = some ss) : ∀ s ∈ ss, s.Proper := by
  induction fuel generalizing text ss with
  | zero => cases h
  | succ fuel ih =>
    unfold scanStatements at h
    split at h
    case h_1 =>
      cases h
      simp
    case h_2 =>
      obtain ⟨r, -, h⟩ := Option.bind_eq_some_iff.1 h
      exact ih h
    case h_3 =>
      split at h
      case h_1 => exact ih h
      case h_2 =>
        split at h
        case h_2 => cases h
        case h_1 hscan =>
          obtain ⟨more, hmore, rfl⟩ := Option.map_eq_some_iff.1 h
          exact List.forall_mem_cons.2 ⟨proper_of_scanStatement? hscan, ih hmore⟩

/-- Both tables of the document are proper. -/
structure Document.Proper (d : Document) : Prop where
  root : d.root.Proper
  current : d.current.Proper

theorem Document.Proper.finish? (h : d.Proper) (hfinish : d.finish? = some t) : t.Proper := by
  unfold Document.finish? at hfinish
  split at hfinish
  case h_1 =>
    cases hfinish
    exact h.current
  case h_2 =>
    obtain ⟨⟨inner, a⟩, hinner, rfl⟩ := Option.map_eq_some_iff.1 hfinish
    refine (h.root.descend (P := fun _ => True) (fun {t w a} ht hput => ?_) hinner).1
    split at hput
    case h_1 | h_2 =>
      cases hput
      exact ⟨ht.put h.current.entry, trivial⟩
    case h_3 => cases hput
  case h_3 =>
    obtain ⟨⟨inner, a⟩, hinner, rfl⟩ := Option.map_eq_some_iff.1 hfinish
    refine (h.root.descend (P := fun _ => True) (fun {t w a} ht hput => ?_) hinner).1
    split at hput
    case h_1 =>
      cases hput
      exact ⟨ht.put (.tables (List.forall_mem_singleton.2 h.current.keys)
        (List.forall_mem_singleton.2 h.current.entries)), trivial⟩
    case h_2 rows hfind =>
      cases hput
      cases ht.find? hfind with
      | tables hkeys hrows =>
        exact ⟨ht.put (.tables (List.forall_mem_append.2 ⟨hkeys, List.forall_mem_singleton.2 h.current.keys⟩)
          (List.forall_mem_append.2 ⟨hrows, List.forall_mem_singleton.2 h.current.entries⟩)), trivial⟩
    case h_3 => cases hput

theorem Table.Proper.beginTable? (h : t.Proper) (hbegin : Document.beginTable? t path key = some d) : d.Proper := by
  obtain ⟨⟨root, current⟩, hdescend, rfl⟩ := Option.map_eq_some_iff.1 hbegin
  have hproper : root.Proper ∧ current.Proper := by
    refine h.descend (fun {t w a} ht hfound => ?_) hdescend
    split at hfound
    case h_1 =>
      cases hfound
      exact ⟨ht, Table.proper_nil false false⟩
    case h_2 hfind =>
      cases hfound
      cases ht.find? hfind with
      | table hkeys hentries => exact ⟨ht.erase, hkeys, hentries⟩
    case h_3 => cases hfound
  exact ⟨hproper.1, hproper.2⟩

theorem Table.Proper.beginRow? (h : t.Proper) (hbegin : Document.beginRow? t path key = some d) : d.Proper := by
  obtain ⟨⟨root, a⟩, hdescend, rfl⟩ := Option.map_eq_some_iff.1 hbegin
  refine ⟨(h.descend (P := fun _ => True) (fun {t w a} ht hfound => ?_) hdescend).1, Table.proper_nil false false⟩
  split at hfound
  case h_1 | h_2 =>
    cases hfound
    exact ⟨ht, trivial⟩
  case h_3 => cases hfound

theorem Document.Proper.step? (h : d.Proper) (hs : s.Proper) (hstep : d.step? s = some d') : d'.Proper := by
  cases s with
  | assign path key v =>
    obtain ⟨t, hassign, rfl⟩ := Option.map_eq_some_iff.1 hstep
    exact ⟨h.root, h.current.assign? hs hassign⟩
  | header path key =>
    obtain ⟨root, hfinish, hbegin⟩ := Option.bind_eq_some_iff.1 hstep
    exact (h.finish? hfinish).beginTable? hbegin
  | arrayHeader path key =>
    obtain ⟨root, hfinish, hbegin⟩ := Option.bind_eq_some_iff.1 hstep
    exact (h.finish? hfinish).beginRow? hbegin

theorem proper_of_ofStatements? (hs : ∀ s ∈ ss, s.Proper) (h : Document.ofStatements? ss = some v) : v.Proper := by
  obtain ⟨d, hfold, h⟩ := Option.bind_eq_some_iff.1 h
  obtain ⟨t, hfinish, h⟩ := Option.bind_eq_some_iff.1 h
  cases h
  have hempty : Document.empty.Proper := ⟨Table.proper_nil false false, Table.proper_nil false false⟩
  exact ((foldlM_preserves (fun s hmem _ _ hd hstep => Document.Proper.step? hd (hs s hmem) hstep) hempty
    hfold).finish? hfinish).toValue

/-- In a document integers fit 64 bits with a sign, and no table has a key twice. -/
theorem proper_of_parse? {source : String} (h : parse? source = some v) : v.Proper := by
  obtain ⟨ss, hscan, h⟩ := Option.bind_eq_some_iff.1 h
  exact proper_of_ofStatements? (proper_of_scanStatements hscan) h

/-! ## Fields -/

theorem Value.Proper.fields? {names : List String} {values : List (Option Value)} (h : v.Proper)
    (hfields : v.fields? names = some values) : ∀ w, some w ∈ values → w.Proper := by
  cases h with
  | table hkeys hentries =>
    cases hfields
    intro w hw
    obtain ⟨name, -, hfind⟩ := List.mem_map.1 hw
    obtain ⟨p, hp, rfl⟩ := Option.map_eq_some_iff.1 hfind
    exact hentries p (List.mem_of_find?_eq_some hp)
  | array hitems =>
    cases hfields
    intro w hw
    rcases List.mem_append.1 hw with hw | hw
    · obtain ⟨item, hitem, heq⟩ := List.mem_map.1 hw
      cases heq
      exact hitems _ (List.mem_of_mem_take hitem)
    · cases List.eq_of_mem_replicate hw
  | date =>
    cases hfields
    intro w hw
    obtain ⟨name, -, heq⟩ := List.mem_map.1 hw
    cases heq
  | text | integer | float | flag => cases hfields

theorem Value.Proper.toNat? {n : Nat} (h : v.Proper) (hn : v.toNat? = some n) : n < 2 ^ 63 := by
  cases h with
  | integer hrange =>
    unfold Value.toNat? at hn
    split at hn
    case h_1 heq =>
      cases heq
      cases hn
      exact Int.ofNat_lt.1 hrange.2
    case h_2 => cases hn
  | text | float | flag | date | array | table => cases hn

end TriadMesh.Toml
