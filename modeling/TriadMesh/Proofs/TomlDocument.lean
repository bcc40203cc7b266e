import TriadMesh.Proofs.TomlScalar
import TriadMesh.Proofs.TomlString
import TriadMesh.Toml.Parser

/-!
# Documents of TOML are read back

The text of a document is read line by line as its statements (`Yields`). The statements of tables with different keys
make just these tables (`ofStatements?_tables`), and a table of different keys has a value for each of them
(`Value.fields?_of_nodup`).
-/

namespace TriadMesh.Toml

variable {text rest : List Char} {c : Char} {fuel : Nat} {v : Value} {s : Statement} {ss : List Statement}

/-! ## Values at the end of a line -/

/-- The text is read as the value, up to the end of its line. -/
structure Reads (text : List Char) (v : Value) : Prop where
  skipBlanks : ∀ rest, skipBlanks (text ++ '\n' :: rest) = text ++ '\n' :: rest
  scanValue : ∀ fuel rest, scanValue (fuel + 1) 0 (text ++ '\n' :: rest) = some (v, '\n' :: rest)

theorem reads_of_scanScalar? (hne : text ≠ []) (hchars : ∀ c ∈ text, isWordChar c)
    (hscan : ∀ rest, scanScalar? (text ++ '\n' :: rest) = some (v, '\n' :: rest)) : Reads text v := by
  obtain ⟨c, text, rfl⟩ := List.exists_cons_of_ne_nil hne
  have hc : isWordChar c = true := hchars c List.mem_cons_self
  have hne : ∀ d, isWordChar d = false → c ≠ d := by
    rintro d hd rfl
    rw [hd] at hc
    cases hc
  refine ⟨fun rest => if_neg (not_or_intro (hne ' ' (by decide)) (hne '\t' (by decide))), fun fuel rest => ?_⟩
  rw [← hscan rest, List.cons_append, scanValue]
  · exact fun tail heq => hne '"' (by decide) (List.head_eq_of_cons_eq heq)
  · exact fun tail heq => hne '\x27' (by decide) (List.head_eq_of_cons_eq heq)
  · exact fun tail heq => hne '[' (by decide) (List.head_eq_of_cons_eq heq)
  · exact fun tail heq => hne '\x7b' (by decide) (List.head_eq_of_cons_eq heq)

theorem reads_float {x : Binary64} (hx : x.isFinite = true) : Reads (Binary64.Style.toml.renderChars x) (.float x) :=
  reads_of_scanScalar? (isWordChar_of_mem_float hx).1 (isWordChar_of_mem_float hx).2 (scanScalar?_float hx)

theorem reads_count {n : Nat} (hn : n < 2 ^ 63) : Reads (Nat.toDigits 10 n) (.integer n) :=
  reads_of_scanScalar? Nat.toDigits_ne_nil
    (fun c hc => isWordChar_of_isDigit ((Decimal.isWhole_toDigits n).isDigit c hc)) (scanScalar?_count hn)

theorem reads_flag (b : Bool) : Reads (if b then ['t', 'r', 'u', 'e'] else ['f', 'a', 'l', 's', 'e']) (.flag b) := by
  refine reads_of_scanScalar? ?_ (isWordChar_of_mem_flag b) (scanScalar?_flag b)
  cases b <;> exact List.cons_ne_nil _ _

theorem reads_text (t : String) : Reads (renderString t.toList) (.text t) := by
  have hscan := fun rest => scanString?_renderString t.toList rest
  obtain ⟨more, htext | htext⟩ := exists_renderString t.toList
  all_goals
    rw [htext] at hscan ⊢
    refine ⟨fun rest => rfl, fun fuel rest => ?_⟩
    rw [List.cons_append, scanValue, ← List.cons_append, hscan, Option.map_some, String.ofList_toList]

/-! ## Keys -/

/-- A key that needs no quotes. -/
structure IsBare (key : String) : Prop where
  isBareChar : ∀ c ∈ key.toList, isBareChar c
  ne_nil : key.toList ≠ []

variable {key : String}

instance : Decidable (IsBare key) :=
  decidable_of_iff (key.toList.all isBareChar = true ∧ key.toList ≠ [])
    ⟨fun h => ⟨List.all_eq_true.1 h.1, h.2⟩, fun h => ⟨List.all_eq_true.2 h.isBareChar, h.ne_nil⟩⟩

theorem isBareChar_ne {c d : Char} (hc : isBareChar c = true) (hd : isBareChar d = false) : c ≠ d := by
  rintro rfl
  rw [hd] at hc
  cases hc

theorem IsBare.exists_cons (hkey : IsBare key) : ∃ c more, key.toList = c :: more ∧ Toml.isBareChar c = true := by
  obtain ⟨c, more, hchars⟩ := List.exists_cons_of_ne_nil hkey.ne_nil
  exact ⟨c, more, hchars, hkey.isBareChar c (hchars ▸ List.mem_cons_self)⟩

theorem scanKeyPart?_of_isBare (hkey : IsBare key) (hrest : ∀ c, rest.head? = some c → isBareChar c = false) :
    scanKeyPart? (key.toList ++ rest) = some (key, rest) := by
  have hne : ∀ d, isBareChar d = false → ∀ tail, key.toList ++ rest ≠ d :: tail := by
    intro d hd tail heq
    obtain ⟨c, more, hchars, hc⟩ := hkey.exists_cons
    rw [hchars] at heq
    exact isBareChar_ne hc hd (List.head_eq_of_cons_eq heq)
  rw [scanKeyPart?]
  · rw [Text.takeWhile_append_eq hkey.isBareChar hrest, Text.dropWhile_append_eq hkey.isBareChar hrest,
      if_neg hkey.ne_nil, String.ofList_toList]
  · exact fun tail heq => hne '"' (by decide) tail heq
  · exact fun tail heq => hne '\x27' (by decide) tail heq

theorem skipBlanks_of_isBare (hkey : IsBare key) : skipBlanks (key.toList ++ rest) = key.toList ++ rest := by
  obtain ⟨c, more, hchars, hc⟩ := hkey.exists_cons
  rw [hchars]
  exact if_neg (not_or_intro (isBareChar_ne hc (by decide)) (isBareChar_ne hc (by decide)))

theorem scanKey?_of_isBare (hkey : IsBare key) (rest : List Char) {after : List Char}
    (hrest : ∀ c, rest.head? = some c → isBareChar c = false) (hafter : skipBlanks rest = c :: after) (hc : c ≠ '.') :
    scanKey? (key.toList ++ rest) = some ([], key, c :: after) := by
  rw [scanKey?, scanKeyParts, skipBlanks_of_isBare hkey, scanKeyPart?_of_isBare hkey hrest]
  dsimp only
  rw [hafter]
  split
  case h_1 heq =>
    cases heq
    exact absurd rfl hc
  case h_2 => rfl

/-! ## Statements -/

theorem scanStatement?_header (hkey : IsBare key) (rest : List Char) :
    scanStatement? ('[' :: key.toList ++ ']' :: '\n' :: rest) = some (.header [] key, rest) := by
  have hscan := scanKey?_of_isBare hkey (']' :: '\n' :: rest) (by rintro c ⟨⟩; decide) rfl (by decide)
  obtain ⟨c, more, hchars, hc⟩ := hkey.exists_cons
  rw [hchars] at hscan ⊢
  rw [List.cons_append, scanStatement?, hscan]
  · rfl
  · exact fun tail heq => isBareChar_ne hc (by decide) (List.head_eq_of_cons_eq heq)

theorem scanStatement?_assign (hkey : IsBare key) (hreads : Reads text v) (rest : List Char) :
    scanStatement? (key.toList ++ [' ', '=', ' '] ++ text ++ '\n' :: rest) = some (.assign [] key v, rest) := by
  have htext : key.toList ++ [' ', '=', ' '] ++ text ++ '\n' :: rest =
      key.toList ++ ' ' :: '=' :: ' ' :: (text ++ '\n' :: rest) := by
    simp
  have hscan : scanKey? (key.toList ++ ' ' :: '=' :: ' ' :: (text ++ '\n' :: rest)) =
      some ([], key, '=' :: ' ' :: (text ++ '\n' :: rest)) :=
    scanKey?_of_isBare hkey _ (by rintro c ⟨⟩; decide) rfl (by decide)
  have hskip : skipBlanks (' ' :: (text ++ '\n' :: rest)) = text ++ '\n' :: rest := hreads.skipBlanks rest
  obtain ⟨c, more, hchars, hc⟩ := hkey.exists_cons
  rw [htext]
  rw [hchars] at hscan ⊢
  rw [List.cons_append, scanStatement?, ← List.cons_append, hscan]
  · simp only [hskip, hreads.scanValue]
    rfl
  · exact fun tail heq => isBareChar_ne hc (by decide) (List.head_eq_of_cons_eq heq)
  · exact fun tail heq => isBareChar_ne hc (by decide) (List.head_eq_of_cons_eq heq)

/-! ## Lines -/

/-- The text is read as the statements, with fuel for its length. -/
def Yields (text : List Char) (statements : List Statement) : Prop :=
  ∀ fuel, text.length < fuel → scanStatements fuel text = some statements

theorem yields_nil : Yields [] [] := by
  rintro (_ | fuel) hfuel
  · cases hfuel
  · rfl

theorem Yields.blankLine (h : Yields text ss) : Yields ('\n' :: text) ss := by
  rintro (_ | fuel) hfuel
  · cases hfuel
  · exact h fuel (by simpa using hfuel)

/-- A line that holds a statement, if its first character is no blank and begins no comment. -/
theorem Yields.line (h : Yields rest ss) (hc : c ≠ ' ' ∧ c ≠ '\t' ∧ c ≠ '#' ∧ c ≠ '\n' ∧ c ≠ '\r')
    (hscan : scanStatement? (c :: text ++ '\n' :: rest) = some (s, rest)) :
    Yields (c :: text ++ '\n' :: rest) (s :: ss) := by
  obtain ⟨hblank, htab, hcomment, hbreak, hreturn⟩ := hc
  rintro (_ | fuel) hfuel
  · cases hfuel
  · have hskip : skipBlanks (c :: text ++ '\n' :: rest) = c :: text ++ '\n' :: rest :=
      if_neg (not_or_intro hblank htab)
    have hline : lineBreak? (c :: text ++ '\n' :: rest) = none := lineBreak?_of_ne ⟨hbreak, hreturn⟩
    have hrest := h fuel (by simp at hfuel; omega)
    rw [scanStatements, hskip]
    split
    case h_1 heq => cases heq
    case h_2 heq => exact absurd (List.head_eq_of_cons_eq heq) hcomment
    case h_3 =>
      rw [hline]
      dsimp only
      rw [hscan]
      dsimp only
      rw [hrest]
      rfl

theorem Yields.header (h : Yields rest ss) (hkey : IsBare key) :
    Yields ('[' :: key.toList ++ ']' :: '\n' :: rest) (.header [] key :: ss) := by
  have hscan := scanStatement?_header hkey rest
  have htext : '[' :: key.toList ++ ']' :: '\n' :: rest = '[' :: (key.toList ++ [']']) ++ '\n' :: rest := by
    simp
  rw [htext] at hscan ⊢
  exact h.line (by decide) hscan

theorem Yields.assign (h : Yields rest ss) (hkey : IsBare key) (hreads : Reads text v) :
    Yields (key.toList ++ [' ', '=', ' '] ++ text ++ '\n' :: rest) (.assign [] key v :: ss) := by
  have hscan := scanStatement?_assign hkey hreads rest
  obtain ⟨c, more, hchars, hc⟩ := hkey.exists_cons
  rw [hchars] at hscan ⊢
  refine h.line ?_ hscan
  exact ⟨isBareChar_ne hc (by decide), isBareChar_ne hc (by decide), isBareChar_ne hc (by decide),
    isBareChar_ne hc (by decide), isBareChar_ne hc (by decide)⟩

/-! ## Tables -/

variable {entries more : List (String × Value)} {tables done : List (String × List (String × Value))}
  {d : Document}

theorem Table.find?_eq_none {t : Table} (h : key ∉ t.entries.map (·.1)) : t.find? key = none := by
  have hnone : t.entries.find? (·.1 == key) = none :=
    List.find?_eq_none.2 fun p hp heq => h (List.mem_map.2 ⟨p, hp, eq_of_beq heq⟩)
  rw [Table.find?, hnone]
  rfl

theorem Table.put_of_find? {t : Table} (h : t.find? key = none) (e : Entry) :
    t.put key e = { t with entries := t.entries ++ [(key, e)] } := by
  rw [Table.put, h]
  rfl

/-- The entries of a table that holds values only. -/
def valueEntries (entries : List (String × Value)) : List (String × Entry) :=
  entries.map fun p => (p.1, .value p.2)

/-- The entries of a document whose tables all have headers. -/
def tableEntries (tables : List (String × List (String × Value))) : List (String × Entry) :=
  tables.map fun t => (t.1, .table false false (valueEntries t.2))

theorem keys_valueEntries (entries : List (String × Value)) :
    (valueEntries entries).map (·.1) = entries.map (·.1) := by
  rw [valueEntries, List.map_map]
  rfl

theorem keys_tableEntries (tables : List (String × List (String × Value))) :
    (tableEntries tables).map (·.1) = tables.map (·.1) := by
  rw [tableEntries, List.map_map]
  rfl

theorem valuesOf_valueEntries (entries : List (String × Value)) : valuesOf (valueEntries entries) = entries := by
  induction entries with
  | nil => rfl
  | cons p entries ih =>
    rw [valueEntries, List.map_cons, ← valueEntries, valuesOf, ih]
    rfl

theorem valuesOf_tableEntries (tables : List (String × List (String × Value))) :
    valuesOf (tableEntries tables) = tables.map fun t => (t.1, .table t.2) := by
  induction tables with
  | nil => rfl
  | cons t tables ih =>
    rw [tableEntries, List.map_cons, ← tableEntries, valuesOf, ih, Entry.toValue, valuesOf_valueEntries]
    rfl

/-- The document has come to the end of these tables. -/
def Finished (d : Document) (done : List (String × List (String × Value))) : Prop :=
  d.finish? = some ⟨false, false, tableEntries done⟩

/-- A document after some tables, while another one is built. -/
def building (done : List (String × List (String × Value))) (key : String) (entries : List (String × Value)) :
    Document :=
  ⟨⟨false, false, tableEntries done⟩, ⟨false, false, valueEntries entries⟩, .table [] key⟩

theorem Finished.step_header (h : Finished d done) (hkey : key ∉ done.map (·.1)) :
    d.step? (.header [] key) = some (building done key []) := by
  have hfind := Table.find?_eq_none (t := ⟨false, false, tableEntries done⟩) ((keys_tableEntries done).symm ▸ hkey)
  rw [Document.step?, h, Option.bind_some, Document.beginTable?, Table.descend, hfind]
  rfl

theorem step_assign (hkey : key ∉ entries.map (·.1)) {name : String} :
    (building done name entries).step? (.assign [] key v) = some (building done name (entries ++ [(key, v)])) := by
  have hfind := Table.find?_eq_none (t := ⟨false, false, valueEntries entries⟩)
    ((keys_valueEntries entries).symm ▸ hkey)
  rw [Document.step?, building, Table.assign?, Table.descend, hfind, Table.put_of_find? hfind]
  simp [building, valueEntries]

theorem foldlM_assign (name : String) (hnodup : ((entries ++ more).map (·.1)).Nodup) :
    (more.map fun p => Statement.assign [] p.1 p.2).foldlM Document.step? (building done name entries) =
      some (building done name (entries ++ more)) := by
  induction more generalizing entries with
  | nil => rw [List.append_nil]; rfl
  | cons p more ih =>
    have hkey : p.1 ∉ entries.map (·.1) := by
      rw [List.map_append, List.nodup_append] at hnodup
      exact fun hmem => hnodup.2.2 _ hmem _ List.mem_cons_self rfl
    rw [List.append_cons] at hnodup ⊢
    rw [List.map_cons, List.foldlM_cons, step_assign hkey]
    exact ih hnodup

theorem finished_building (hkey : key ∉ done.map (·.1)) :
    Finished (building done key entries) (done ++ [(key, entries)]) := by
  have hfind := Table.find?_eq_none (t := ⟨false, false, tableEntries done⟩) ((keys_tableEntries done).symm ▸ hkey)
  simp only [Finished, building, Document.finish?, Table.descend, hfind, Table.put_of_find? hfind]
  simp [tableEntries, Table.entry]

/-- The statements of a table: its header, and its values. -/
def tableStatements (t : String × List (String × Value)) : List Statement :=
  .header [] t.1 :: t.2.map fun p => .assign [] p.1 p.2

theorem Finished.foldlM_tables (h : Finished d done) (hnodup : ((done ++ tables).map (·.1)).Nodup)
    (hkeys : ∀ t ∈ tables, (t.2.map (·.1)).Nodup) :
    ∃ d', (tables.flatMap tableStatements).foldlM Document.step? d = some d' ∧ Finished d' (done ++ tables) := by
  -- Between two tables the document is finished up to those before, so each header finds it in the same state.
  induction tables generalizing d done with
  | nil => exact ⟨d, rfl, (List.append_nil done).symm ▸ h⟩
  | cons t tables ih =>
    have hkey : t.1 ∉ done.map (·.1) := by
      rw [List.map_append, List.nodup_append] at hnodup
      exact fun hmem => hnodup.2.2 _ hmem _ List.mem_cons_self rfl
    have hbuilt : _ = some (building done t.1 ([] ++ t.2)) := foldlM_assign t.1 (hkeys t List.mem_cons_self)
    rw [List.append_cons] at hnodup ⊢
    have hdone : Finished (building done t.1 t.2) (done ++ [(t.1, t.2)]) := finished_building hkey
    obtain ⟨d', hfold, hfinished⟩ := ih hdone hnodup fun u hu => hkeys u (List.mem_cons_of_mem t hu)
    refine ⟨d', ?_, hfinished⟩
    rw [List.flatMap_cons, List.foldlM_append, tableStatements, List.foldlM_cons, h.step_header hkey]
    change (List.foldlM _ (building done t.1 []) _ >>= _) = _
    rw [hbuilt]
    exact hfold

/-- Tables with different keys, each of different keys, make a document of just these tables. -/
theorem ofStatements?_tables (hnodup : (tables.map (·.1)).Nodup) (hkeys : ∀ t ∈ tables, (t.2.map (·.1)).Nodup) :
    Document.ofStatements? (tables.flatMap tableStatements) =
      some (.table (tables.map fun t => (t.1, .table t.2))) := by
  have hempty : Finished .empty [] := rfl
  obtain ⟨d, hfold, hfinished⟩ := hempty.foldlM_tables hnodup hkeys
  rw [Document.ofStatements?, hfold]
  change (d.finish? >>= fun t => some (Value.table (valuesOf t.entries))) = _
  rw [hfinished, List.nil_append]
  change some (Value.table (valuesOf (tableEntries tables))) = _
  rw [valuesOf_tableEntries]

/-! ## Reading a document -/

theorem find?_of_mem (hnodup : (entries.map (·.1)).Nodup) (h : (key, v) ∈ entries) :
    entries.find? (·.1 == key) = some (key, v) := by
  induction entries with
  | nil => cases h
  | cons p entries ih =>
    rw [List.map_cons, List.nodup_cons] at hnodup
    rcases List.mem_cons.1 h with rfl | h
    · exact List.find?_cons_of_pos (beq_self_eq_true key)
    · have hne : p.1 ≠ key := fun heq => hnodup.1 (List.mem_map.2 ⟨(key, v), h, heq.symm⟩)
      rw [List.find?_cons_of_neg (by simpa using hne), ih hnodup.2 h]

/-- A table of different keys has a value for each of them. -/
theorem Value.fields?_of_nodup (hnodup : (entries.map (·.1)).Nodup) :
    (Value.table entries).fields? (entries.map (·.1)) = some (entries.map fun p => some p.2) := by
  rw [fields?, List.map_map]
  congr 1
  refine List.map_congr_left fun p hp => ?_
  rw [Function.comp_apply, find?_of_mem hnodup hp]
  rfl

/-- A text is read as what its statements make, if it does not begin with a byte order mark. -/
theorem parse?_of_yields (hmark : text.head? ≠ some '\uFEFF') (h : Yields text ss) :
    parse? (String.ofList text) = Document.ofStatements? ss := by
  rw [parse?, String.toList_ofList]
  split
  case h_1 rest => exact absurd rfl hmark
  case h_2 =>
    rw [h _ (Nat.lt_succ_self _)]
    rfl

end TriadMesh.Toml
