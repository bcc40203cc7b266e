import Mathlib.Data.List.Basic
import Mathlib.Tactic.IntervalCases
import Mathlib.Tactic.SplitIfs
import TriadMesh.Toml.Text

/-!
# Strings of TOML are read back

The writer picks one of six forms for a text; each is read as the text, whatever it holds (`scanString?_renderString`).
In the forms of several lines up to two quotes may stand in front of the closing ones, so what matters is that no three
quotes stand in a row before.
-/

namespace TriadMesh.Toml

variable {c quote : Char} {raw text rest : List Char} {fuel : Nat} {lines : Bool}

/-! ## Pieces of quoted strings -/

/-- What is written in place of a character between quotes. -/
inductive Piece (lines : Bool) : List Char → Char → Prop where
  | plain {c : Char} (hplain : isPlain c = true) (hslash : c ≠ '\\') : Piece lines [c] c
  | lineBreak (hlines : lines = true) : Piece lines ['\n'] '\n'
  | escape {c e : Char} {raw : List Char} (hread : ∀ text, escape? (e :: raw ++ text) = some (c, text))
      (hblank : e ≠ ' ' ∧ e ≠ '\t') (hbreak : e ≠ '\n' ∧ e ≠ '\r') : Piece lines ('\\' :: e :: raw) c

theorem hexValue?_upperHexDigit : ∀ n < 16, Text.hexValue? (Text.upperHexDigit n) = some n := by decide

theorem escape?_unicode (hc : c.toNat < 256) (text : List Char) :
    escape? (['u', '0', '0', Text.upperHexDigit (c.toNat / 16), Text.upperHexDigit (c.toNat % 16)] ++ text) =
      some (c, text) := by
  have hzero : Text.hexValue? '0' = some 0 := by decide
  have hnumber : hexNumber? ['0', '0', Text.upperHexDigit (c.toNat / 16), Text.upperHexDigit (c.toNat % 16)] =
      some c.toNat := by
    simp only [hexNumber?, List.foldlM_cons, List.foldlM_nil, hzero, hexValue?_upperHexDigit (c.toNat / 16) (by omega),
      hexValue?_upperHexDigit (c.toNat % 16) (by omega), Option.map_some, Option.bind_eq_bind, Option.bind_some]
    change some _ = some _
    congr 1
    omega
  have hscalar : scalar? c.toNat = some c := by
    rw [scalar?, if_pos (.inl (by omega)), Char.ofNat_toNat]
  rw [List.cons_append, escape?, if_neg (by simp)]
  change ((hexNumber? ['0', '0', _, _]).bind scalar?).map (fun c => (c, text)) = _
  rw [hnumber, Option.bind_some, hscalar]
  rfl

theorem piece_short (e : Char) (hread : ∀ text, escape? (e :: text) = some (c, text))
    (hblank : e ≠ ' ' ∧ e ≠ '\t') (hbreak : e ≠ '\n' ∧ e ≠ '\r') : Piece lines ['\\', e] c :=
  .escape hread hblank hbreak

theorem piece_quotedChar (lines : Bool) (c : Char) : Piece lines (quotedChar lines c).1 c := by
  have hcode : ∀ {n}, c.toNat = n → c = Char.ofNat n := fun h => h ▸ (Char.ofNat_toNat c).symm
  unfold quotedChar
  split_ifs with htab hbreak hlines hreturn hslash hb hf hcontrol
  · exact piece_short 't' (fun _ => by rw [htab]; rfl) (by decide) (by decide)
  · exact hbreak ▸ .lineBreak hlines
  · exact piece_short 'n' (fun _ => by rw [hbreak]; rfl) (by decide) (by decide)
  · exact piece_short 'r' (fun _ => by rw [hreturn]; rfl) (by decide) (by decide)
  · exact piece_short '\\' (fun _ => by rw [hslash]; rfl) (by decide) (by decide)
  · exact piece_short 'b' (fun _ => by rw [hcode hb]; rfl) (by decide) (by decide)
  · exact piece_short 'f' (fun _ => by rw [hcode hf]; rfl) (by decide) (by decide)
  · exact .escape (escape?_unicode (by omega)) (by decide) (by decide)
  · refine .plain ?_ hslash
    simp [isPlain]
    omega

/-- On one line a piece that is not the closing quote is read as its character. -/
theorem Piece.scanQuoted (h : Piece false raw c) (hraw : raw ≠ ['"']) :
    scanQuoted (fuel + 1) (raw ++ text) = (scanQuoted fuel text).map fun p => (c :: p.1, p.2) := by
  cases h with
  | plain hplain hslash =>
    have hquote : c ≠ '"' := fun hc => hraw (by rw [hc])
    rw [List.singleton_append, Toml.scanQuoted, if_neg hquote, if_neg hslash, if_pos hplain]
  | lineBreak hlines => cases hlines
  | escape hread =>
    rw [List.cons_append, Toml.scanQuoted, if_neg (by decide), if_pos rfl, hread]

theorem lineBreak?_of_ne (h : c ≠ '\n' ∧ c ≠ '\r') : lineBreak? (c :: text) = none := by
  unfold lineBreak?
  split
  case h_1 heq =>
    cases heq
    exact absurd rfl h.1
  case h_2 heq =>
    cases heq
    exact absurd rfl h.2
  case h_3 => rfl

theorem ne_of_isPlain (h : isPlain c = true) : c ≠ '\n' ∧ c ≠ '\r' := by
  constructor <;>
  · rintro rfl
    exact absurd h (by decide)

/-- On several lines a piece is read as its character unless the string ends here. -/
theorem Piece.scanQuotedLines (h : Piece true raw c) (hopen : closing? '"' (raw ++ text) = none) :
    scanQuotedLines (fuel + 1) (raw ++ text) = (scanQuotedLines fuel text).map fun p => (c :: p.1, p.2) := by
  rw [Toml.scanQuotedLines.eq_def]
  dsimp only
  rw [hopen]
  cases h with
  | plain hplain hslash =>
    rw [List.singleton_append, lineBreak?_of_ne (ne_of_isPlain hplain)]
    dsimp only
    split
    case h_1 heq => cases heq
    case h_2 heq =>
      cases heq
      exact absurd rfl hslash
    case h_3 heq =>
      cases heq
      rw [if_pos hplain]
  | lineBreak hlines => rfl
  | @escape c e raw hread hblank hbreak =>
    have hskip : skipBlanks (e :: (raw ++ text)) = e :: (raw ++ text) := if_neg (by simp [hblank])
    have hescape : escape? (e :: (raw ++ text)) = some (c, text) := hread text
    rw [List.cons_append, List.cons_append, lineBreak?_of_ne (by decide)]
    change (if (lineBreak? (skipBlanks (e :: (raw ++ text)))).isSome then _ else _) = _
    rw [hskip, lineBreak?_of_ne hbreak, if_neg (by decide), hescape]

/-! ## Quoted strings -/

variable {run : Nat}

/-- The first character is written as a piece, and only within a run of quotes as a quote. -/
theorem quotedBody_cons (lines : Bool) (run : Nat) (c : Char) (text : List Char) :
    ∃ raw run', quotedBody lines run (c :: text) = raw ++ quotedBody lines run' text ∧ Piece lines raw c ∧
      (raw.head? = some '"' ∧ raw = ['"'] ∧ c = '"' ∧ lines = true ∧ run < 2 ∧ run' = run + 1 ∨
        raw.head? ≠ some '"' ∧ run' = 0) := by
  by_cases hquote : c = '"'
  · subst hquote
    rw [quotedBody, if_pos rfl]
    by_cases hrun : run < (if lines then 2 else 0)
    · rw [if_pos hrun]
      refine ⟨['"'], run + 1, rfl, .plain (by decide) (by decide), .inl ⟨rfl, rfl, rfl, ?_⟩⟩
      cases lines with
      | true => exact ⟨rfl, hrun, rfl⟩
      | false => exact absurd hrun (Nat.not_lt_zero run)
    · rw [if_neg hrun]
      exact ⟨['\\', '"'], 0, rfl, piece_short '"' (fun _ => rfl) (by decide) (by decide), .inr ⟨by decide, rfl⟩⟩
  · rw [quotedBody, if_neg hquote]
    refine ⟨(quotedChar lines c).1, 0, rfl, piece_quotedChar lines c, .inr ⟨?_, rfl⟩⟩
    have hpiece := piece_quotedChar lines c
    generalize (quotedChar lines c).1 = raw at hpiece
    cases hpiece with
    | plain => simpa using hquote
    | lineBreak => decide
    | escape => exact fun h => absurd h (by simp)

theorem Piece.ne_nil (h : Piece lines raw c) : raw ≠ [] := by
  cases h <;> simp

theorem scanQuoted_quotedBody (hfuel : (quotedBody false run text).length < fuel) :
    scanQuoted fuel (quotedBody false run text ++ '"' :: rest) = some (text, rest) := by
  induction text generalizing run fuel with
  | nil =>
    obtain ⟨fuel, rfl⟩ : ∃ k, fuel = k + 1 := ⟨fuel - 1, by omega⟩
    rfl
  | cons c text ih =>
    obtain ⟨fuel, rfl⟩ : ∃ k, fuel = k + 1 := ⟨fuel - 1, by omega⟩
    obtain ⟨raw, run', hbody, hpiece, hhead⟩ := quotedBody_cons false run c text
    have hraw : raw ≠ ['"'] := by
      rintro rfl
      rcases hhead with ⟨-, -, -, hlines, -⟩ | ⟨hhead, -⟩
      · cases hlines
      · exact hhead rfl
    have hpos := List.length_pos_of_ne_nil hpiece.ne_nil
    rw [hbody, List.length_append] at hfuel
    rw [hbody, List.append_assoc, hpiece.scanQuoted hraw, ih (by omega)]
    rfl

/-! ## Strings of several lines -/

/-- Up to two quotes in front of the closing ones belong to the text. -/
theorem closing?_replicate {k : Nat} (hk : k ≤ 2) (hquote : quote ≠ '\n') {more : List Char}
    (hmore : ∀ c, more.head? = some c → c ≠ quote) (rest : List Char) :
    closing? quote (List.replicate k quote ++ more ++ [quote, quote, quote] ++ '\n' :: rest) =
      if more = [] then some (List.replicate k quote, '\n' :: rest) else none := by
  have hne : '\n' ≠ quote := hquote.symm
  cases more with
  | nil => interval_cases k <;> cases rest <;> simp [closing?, hne]
  | cons c more =>
    have hc := hmore c rfl
    interval_cases k <;> rcases more with _ | ⟨d, _ | ⟨e, more⟩⟩ <;> simp [closing?, hc]

/-- A body begins with two quotes at most, and one of quotes alone stands for itself. -/
theorem quotedBody_quotes (run : Nat) (hrun : run ≤ 2) (text : List Char) :
    ∃ k more, quotedBody true run text = List.replicate k '"' ++ more ∧ k + run ≤ 2 ∧
      (∀ c, more.head? = some c → c ≠ '"') ∧ (more = [] → text = List.replicate k '"') := by
  induction text generalizing run with
  | nil => exact ⟨0, [], rfl, by omega, by rintro c ⟨⟩, fun _ => rfl⟩
  | cons c text ih =>
    obtain ⟨raw, run', hbody, hpiece, ⟨-, rfl, rfl, -, hlt, rfl⟩ | ⟨hhead, -⟩⟩ := quotedBody_cons true run c text
    · obtain ⟨k, more, hmore, hk, hne, htext⟩ := ih (run + 1) (by omega)
      refine ⟨k + 1, more, ?_, by omega, hne, fun h => ?_⟩
      · rw [hbody, hmore, List.replicate_succ]
        rfl
      · rw [htext h, List.replicate_succ]
    · refine ⟨0, raw ++ quotedBody true run' text, hbody, by omega, ?_, fun h => ?_⟩
      · rw [List.head?_append_of_ne_nil _ hpiece.ne_nil]
        rintro d hd rfl
        exact hhead hd
      · exact absurd (List.append_eq_nil_iff.1 h).1 hpiece.ne_nil

theorem scanQuotedLines_quotedBody (hrun : run ≤ 2) (hfuel : (quotedBody true run text).length < fuel) :
    scanQuotedLines fuel (quotedBody true run text ++ ['"', '"', '"'] ++ '\n' :: rest) = some (text, '\n' :: rest) := by
  induction text generalizing run fuel with
  | nil =>
    obtain ⟨fuel, rfl⟩ : ∃ k, fuel = k + 1 := ⟨fuel - 1, by omega⟩
    cases rest <;> rfl
  | cons c text ih =>
    obtain ⟨fuel, rfl⟩ : ∃ k, fuel = k + 1 := ⟨fuel - 1, by omega⟩
    obtain ⟨k, more, hquotes, hk, hmore, htext⟩ := quotedBody_quotes run hrun (c :: text)
    have hclosing := closing?_replicate (show k ≤ 2 by omega) (by decide) hmore rest
    rw [← hquotes] at hclosing
    by_cases hnil : more = []
    · rw [if_pos hnil] at hclosing
      rw [scanQuotedLines.eq_def]
      dsimp only
      rw [hclosing, htext hnil]
    · rw [if_neg hnil] at hclosing
      obtain ⟨raw, run', hbody, hpiece, hhead⟩ := quotedBody_cons true run c text
      have hpos := List.length_pos_of_ne_nil hpiece.ne_nil
      rw [hbody, List.append_assoc, List.append_assoc] at hclosing
      rw [hbody, List.length_append] at hfuel
      rw [hbody, List.append_assoc, List.append_assoc, hpiece.scanQuotedLines hclosing, ← List.append_assoc,
        ih (by omega) (by omega)]
      rfl

/-! ## Runs of quotes -/

/-- The run that ends here and the longest one so far, after a further character. -/
def runStep (quote : Char) (r : Nat × Nat) (c : Char) : Nat × Nat :=
  let run := if c = quote then r.1 + 1 else 0
  (run, max r.2 run)

theorem longestRun_eq (quote : Char) (text : List Char) :
    longestRun quote text = (text.foldl (runStep quote) (0, 0)).2 := rfl

theorem foldl_runStep (quote : Char) (text : List Char) {r : Nat × Nat} (hr : r.1 ≤ r.2) :
    r.2 ≤ (text.foldl (runStep quote) r).2 ∧
      (text.foldl (runStep quote) r).1 ≤ (text.foldl (runStep quote) r).2 := by
  induction text generalizing r with
  | nil => exact ⟨Nat.le_refl _, hr⟩
  | cons c text ih =>
    obtain ⟨hmono, hle⟩ := ih (r := runStep quote r c) (Nat.le_max_right ..)
    exact ⟨(Nat.le_max_left ..).trans hmono, hle⟩

theorem foldl_runStep_replicate (quote : Char) (k : Nat) {r : Nat × Nat} (hr : r.1 ≤ r.2) :
    r.1 + k ≤ ((List.replicate k quote).foldl (runStep quote) r).2 := by
  induction k generalizing r with
  | zero => exact hr
  | succ k ih =>
    have hstep : (runStep quote r quote).1 = r.1 + 1 := if_pos rfl
    have := ih (r := runStep quote r quote) (Nat.le_max_right ..)
    rw [List.replicate_succ, List.foldl_cons]
    omega

theorem le_longestRun {k : Nat} (h : List.replicate k quote <:+: text) : k ≤ longestRun quote text := by
  obtain ⟨before, after, rfl⟩ := h
  rw [longestRun_eq, List.foldl_append, List.foldl_append]
  have hbefore := (foldl_runStep quote before (r := (0, 0)) (Nat.le_refl 0)).2
  generalize before.foldl (runStep quote) (0, 0) = r at hbefore
  have hrun := foldl_runStep_replicate quote k hbefore
  have hmid := foldl_runStep quote (List.replicate k quote) hbefore
  have hafter := foldl_runStep quote after hmid.2
  omega

theorem not_mem_of_longestRun (h : longestRun quote text = 0) : quote ∉ text := by
  intro hmem
  obtain ⟨before, after, rfl⟩ := List.append_of_mem hmem
  have hinfix : List.replicate 1 quote <:+: before ++ quote :: after := ⟨before, after, by simp⟩
  have := le_longestRun hinfix
  omega

/-- With no three quotes in a row a text begins with two at most. -/
theorem exists_leading_quotes (h : ¬List.replicate 3 quote <:+: text) :
    ∃ k more, text = List.replicate k quote ++ more ∧ k ≤ 2 ∧ ∀ c, more.head? = some c → c ≠ quote := by
  rcases text with _ | ⟨a, text⟩
  · exact ⟨0, [], rfl, by omega, by rintro c ⟨⟩⟩
  by_cases ha : a = quote
  swap
  · exact ⟨0, a :: text, rfl, by omega, by rintro c ⟨⟩; exact ha⟩
  rcases text with _ | ⟨b, text⟩
  · exact ⟨1, [], by rw [ha]; rfl, by omega, by rintro c ⟨⟩⟩
  by_cases hb : b = quote
  swap
  · exact ⟨1, b :: text, by rw [ha]; rfl, by omega, by rintro c ⟨⟩; exact hb⟩
  refine ⟨2, text, by rw [ha, hb]; rfl, by omega, ?_⟩
  rintro c hc rfl
  obtain ⟨rest, rfl⟩ : ∃ rest, text = c :: rest := by
    cases text with
    | nil => cases hc
    | cons d rest =>
      cases hc
      exact ⟨rest, rfl⟩
  exact h ⟨[], rest, by rw [ha, hb]; rfl⟩

/-! ## Literal strings -/

theorem scanLiteral_append (hplain : ∀ c ∈ text, isPlain c = true) (hquote : '\x27' ∉ text) :
    scanLiteral (text ++ '\x27' :: rest) = some (text, rest) := by
  induction text with
  | nil => rfl
  | cons c text ih =>
    have hc : c ≠ '\x27' := fun h => hquote (h ▸ List.mem_cons_self)
    rw [List.cons_append, scanLiteral, if_neg hc, if_pos (hplain c List.mem_cons_self),
      ih (fun d hd => hplain d (List.mem_cons_of_mem c hd)) fun hd => hquote (List.mem_cons_of_mem c hd)]
    rfl

theorem scanLiteralLines_append (hplain : ∀ c ∈ text, isPlain c = true ∨ c = '\n')
    (hquotes : ¬List.replicate 3 '\x27' <:+: text) (hfuel : text.length < fuel) :
    scanLiteralLines fuel (text ++ ['\x27', '\x27', '\x27'] ++ '\n' :: rest) = some (text, '\n' :: rest) := by
  induction text generalizing fuel with
  | nil =>
    obtain ⟨fuel, rfl⟩ : ∃ k, fuel = k + 1 := ⟨fuel - 1, by omega⟩
    cases rest <;> rfl
  | cons c text ih =>
    obtain ⟨fuel, rfl⟩ : ∃ k, fuel = k + 1 := ⟨fuel - 1, by omega⟩
    obtain ⟨k, more, hleading, hk, hmore⟩ := exists_leading_quotes hquotes
    have hclosing := closing?_replicate hk (by decide) hmore rest
    rw [← hleading] at hclosing
    rw [scanLiteralLines.eq_def]
    dsimp only
    rw [hclosing]
    by_cases hnil : more = []
    · rw [if_pos hnil, hleading, hnil, List.append_nil]
    · rw [if_neg hnil]
      have hrec : scanLiteralLines fuel (text ++ ['\x27', '\x27', '\x27'] ++ '\n' :: rest) = _ :=
        ih (fun d hd => hplain d (List.mem_cons_of_mem c hd))
          (fun h => hquotes (h.trans (List.suffix_cons c text).isInfix)) (by simpa using hfuel)
      rcases hplain c List.mem_cons_self with hc | rfl
      · rw [List.cons_append, List.cons_append, lineBreak?_of_ne (ne_of_isPlain hc)]
        dsimp only
        rw [if_pos hc, hrec]
        rfl
      · change (scanLiteralLines fuel (text ++ ['\x27', '\x27', '\x27'] ++ '\n' :: rest)).map _ = _
        rw [hrec]
        rfl

/-! ## The six forms -/

/-- A line break in front of the text makes up for the one that is dropped. -/
theorem dropLineBreak_opening {opening : List Char} (hopening : (if text.contains '\n' then ['\n'] else []) = opening)
    {more : List Char} (hbreak : '\n' ∉ text → lineBreak? more = none) : dropLineBreak (opening ++ more) = more := by
  by_cases h : '\n' ∈ text
  · rw [← hopening, if_pos (by simpa using h)]
    rfl
  · rw [← hopening, if_neg (by simpa using h), List.nil_append, dropLineBreak, hbreak h]
    rfl

theorem lineBreak?_append_quotes (hquote : quote ≠ '\n' ∧ quote ≠ '\r') {body : List Char}
    (hhead : ∀ c, body.head? = some c → c ≠ '\n' ∧ c ≠ '\r') (more : List Char) :
    lineBreak? (body ++ [quote, quote, quote] ++ more) = none := by
  cases body with
  | nil => exact lineBreak?_of_ne hquote
  | cons c body => exact lineBreak?_of_ne (hhead c rfl)

theorem scanString?_quoted (text rest : List Char) :
    scanString? ('"' :: quotedBody false 0 text ++ ['"'] ++ '\n' :: rest) = some (text, '\n' :: rest) := by
  have hdispatch : ∀ more, (∀ tail, more ≠ '"' :: '"' :: tail) →
      scanString? ('"' :: more) = scanQuoted (more.length + 1) more := by
    intro more hmore
    unfold scanString?
    split
    case h_1 heq => exact absurd (List.cons.inj heq).2 (hmore _)
    case h_2 heq =>
      cases heq
      rfl
    case h_3 heq => cases heq
    case h_4 heq => cases heq
    case h_5 _ hne _ _ => exact (hne more rfl).elim
  have hbody : ∀ tail, quotedBody false 0 text ++ '"' :: '\n' :: rest ≠ '"' :: '"' :: tail := by
    intro tail heq
    cases text with
    | nil => cases heq
    | cons c text =>
      obtain ⟨raw, run', hcons, hpiece, ⟨-, -, -, hlines, -⟩ | ⟨hhead, -⟩⟩ := quotedBody_cons false 0 c text
      · cases hlines
      · have hfirst := congrArg List.head? heq
        rw [hcons, List.append_assoc, List.head?_append_of_ne_nil _ hpiece.ne_nil] at hfirst
        exact hhead hfirst
  have htext : '"' :: quotedBody false 0 text ++ ['"'] ++ '\n' :: rest =
      '"' :: (quotedBody false 0 text ++ '"' :: '\n' :: rest) := by
    simp
  rw [htext, hdispatch _ hbody, scanQuoted_quotedBody (by rw [List.length_append]; omega)]

/-- A text without line breaks is not begun with one. -/
theorem head?_quotedBody_ne (hbreak : '\n' ∉ text) :
    ∀ c, (quotedBody true 0 text).head? = some c → c ≠ '\n' ∧ c ≠ '\r' := by
  intro d hd
  cases text with
  | nil => cases hd
  | cons c text =>
    obtain ⟨raw, run', hcons, hpiece, -⟩ := quotedBody_cons true 0 c text
    rw [hcons, List.head?_append_of_ne_nil _ hpiece.ne_nil] at hd
    cases hpiece with
    | plain hplain =>
      cases hd
      exact ne_of_isPlain hplain
    | lineBreak => exact absurd List.mem_cons_self hbreak
    | escape =>
      cases hd
      decide

theorem scanString?_quotedLines {opening : List Char}
    (hopening : (if text.contains '\n' then ['\n'] else []) = opening) (rest : List Char) :
    scanString? (['"', '"', '"'] ++ opening ++ quotedBody true 0 text ++ ['"', '"', '"'] ++ '\n' :: rest) =
      some (text, '\n' :: rest) := by
  have hdrop : dropLineBreak (opening ++ (quotedBody true 0 text ++ ['"', '"', '"'] ++ '\n' :: rest)) =
      quotedBody true 0 text ++ ['"', '"', '"'] ++ '\n' :: rest := by
    exact dropLineBreak_opening hopening fun hbreak =>
      lineBreak?_append_quotes (by decide) (head?_quotedBody_ne hbreak) _
  have htext : ['"', '"', '"'] ++ opening ++ quotedBody true 0 text ++ ['"', '"', '"'] ++ '\n' :: rest =
      '"' :: '"' :: '"' :: (opening ++ (quotedBody true 0 text ++ ['"', '"', '"'] ++ '\n' :: rest)) := by
    simp
  rw [htext, scanString?, hdrop]
  refine scanQuotedLines_quotedBody (by omega) ?_
  simp only [List.length_append]
  omega

theorem scanString?_literal (hplain : ∀ c ∈ text, isPlain c = true) (hquote : '\x27' ∉ text) (rest : List Char) :
    scanString? ('\x27' :: text ++ ['\x27'] ++ '\n' :: rest) = some (text, '\n' :: rest) := by
  have hdispatch : ∀ more, (∀ tail, more ≠ '\x27' :: '\x27' :: tail) →
      scanString? ('\x27' :: more) = scanLiteral more := by
    intro more hmore
    unfold scanString?
    split
    case h_1 heq => cases heq
    case h_2 heq => cases heq
    case h_3 heq => exact absurd (List.cons.inj heq).2 (hmore _)
    case h_4 heq =>
      cases heq
      rfl
    case h_5 _ _ _ hne => exact (hne more rfl).elim
  have hbody : ∀ tail, text ++ '\x27' :: '\n' :: rest ≠ '\x27' :: '\x27' :: tail := by
    intro tail heq
    cases text with
    | nil => cases heq
    | cons c text => exact hquote (List.head_eq_of_cons_eq heq ▸ List.mem_cons_self)
  have htext : '\x27' :: text ++ ['\x27'] ++ '\n' :: rest = '\x27' :: (text ++ '\x27' :: '\n' :: rest) := by
    simp
  rw [htext, hdispatch _ hbody, scanLiteral_append hplain hquote]

theorem scanString?_literalLines (hplain : ∀ c ∈ text, isPlain c = true ∨ c = '\n')
    (hquotes : ¬List.replicate 3 '\x27' <:+: text) {opening : List Char}
    (hopening : (if text.contains '\n' then ['\n'] else []) = opening) (rest : List Char) :
    scanString? (['\x27', '\x27', '\x27'] ++ opening ++ text ++ ['\x27', '\x27', '\x27'] ++ '\n' :: rest) =
      some (text, '\n' :: rest) := by
  have hdrop : dropLineBreak (opening ++ (text ++ ['\x27', '\x27', '\x27'] ++ '\n' :: rest)) =
      text ++ ['\x27', '\x27', '\x27'] ++ '\n' :: rest := by
    refine dropLineBreak_opening hopening fun hbreak => lineBreak?_append_quotes (by decide) (fun c hc => ?_) _
    have hmem : c ∈ text := List.mem_of_mem_head? hc
    exact ne_of_isPlain ((hplain c hmem).resolve_right fun h => hbreak (h ▸ hmem))
  have htext : ['\x27', '\x27', '\x27'] ++ opening ++ text ++ ['\x27', '\x27', '\x27'] ++ '\n' :: rest =
      '\x27' :: '\x27' :: '\x27' :: (opening ++ (text ++ ['\x27', '\x27', '\x27'] ++ '\n' :: rest)) := by
    simp
  rw [htext, scanString?, hdrop]
  refine scanLiteralLines_append hplain hquotes ?_
  simp only [List.length_append]
  omega

/-- Every text is read back from the form that is chosen for it. -/
theorem scanString?_renderString (text rest : List Char) :
    scanString? (renderString text ++ '\n' :: rest) = some (text, '\n' :: rest) := by
  have hplain : (!text.any needsEscape) = true → ∀ c ∈ text, isPlain c = true ∨ c = '\n' := by
    intro h c hc
    have hescape : ¬needsEscape c = true := List.any_eq_false.1 (by simpa using h) c hc
    by_cases hbreak : c = '\n'
    · exact .inr hbreak
    · simp only [needsEscape, Bool.or_eq_true, Bool.and_eq_true, decide_eq_true_eq, bne_iff_ne, beq_iff_eq] at hescape
      simp only [isPlain, Bool.or_eq_true, Bool.and_eq_true, decide_eq_true_eq, bne_iff_ne]
      grind
  unfold renderString
  dsimp only
  generalize hopening : (if text.contains '\n' then ['\n'] else []) = opening
  split_ifs with hquoted hliteral hquotedLines hliteralLines hbreak
  · exact scanString?_quoted text rest
  · simp only [Bool.and_eq_true, beq_iff_eq, Bool.not_eq_true', List.contains_eq_mem, decide_eq_false_iff_not]
      at hliteral
    obtain ⟨⟨hcontrol, hrun⟩, hbreak⟩ := hliteral
    refine scanString?_literal (fun c hc => ?_) (not_mem_of_longestRun hrun) rest
    exact (hplain (by simpa using hcontrol) c hc).resolve_right fun h => hbreak (h ▸ hc)
  · exact scanString?_quotedLines hopening rest
  · simp only [Bool.and_eq_true, decide_eq_true_eq] at hliteralLines
    exact scanString?_literalLines (hplain hliteralLines.1)
      (fun h => absurd (le_longestRun h) (by omega)) hopening rest
  · exact scanString?_quotedLines hopening rest
  · exact scanString?_quoted text rest

/-- Every form begins with a quote of its kind. -/
theorem exists_renderString (text : List Char) :
    ∃ more, renderString text = '"' :: more ∨ renderString text = '\x27' :: more := by
  unfold renderString
  dsimp only
  split_ifs
  all_goals first | exact ⟨_, .inl rfl⟩ | exact ⟨_, .inr rfl⟩

end TriadMesh.Toml
