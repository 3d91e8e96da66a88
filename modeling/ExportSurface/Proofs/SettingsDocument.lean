/-
Settings are read back from their document.

A document of settings is a line with an array of texts, an empty line, a header and three lines
with switches.  Each of these pieces is read by a lemma of its own that leaves what follows, and the
document is read by putting them in a row.  An array takes fuel for each of its items, and the text
it is written in is longer than that.

Main definitions:

* `Toml.isBare` — may a key be written without quotes?
* `Settings.sections` — the sections that settings are written in.

Main results:

* `Toml.readPair_line` — a line with a key and its value;
* `Settings.readValue_renderTexts` — an array of texts;
* `Settings.readSections_render` — the sections of the document;
* `Settings.parse_render` — **settings are read back from their document**.
-/

import ExportSurface.Proofs.WrittenTexts
import ExportSurface.Settings

set_option autoImplicit false

namespace ExportSurface

namespace Toml

/-! ### Keys -/

/-- May a key be written without quotes? -/
def isBare (key : String) : Bool := !key.toList.isEmpty && key.toList.all isBareKey

theorem skipBlanks_cons {c : Char} (hc : isBlank c = false) (cs : List Char) :
    skipBlanks (c :: cs) = c :: cs := by
  simp [skipBlanks, hc]

theorem skipBlanks_space (cs : List Char) : skipBlanks (' ' :: cs) = skipBlanks cs := rfl

theorem not_isBlank_of_isBareKey {c : Char} (hc : isBareKey c = true) : isBlank c = false := by
  rw [isBlank, Bool.or_eq_false_iff, beq_eq_false_iff_ne, beq_eq_false_iff_ne]
  constructor <;> rintro rfl <;> revert hc <;> decide

theorem ne_of_isBareKey {c d : Char} (hc : isBareKey c = true) (hd : isBareKey d = false) :
    c ≠ d := by
  rintro rfl
  simp [hc] at hd

theorem isBare_iff {key : String} :
    isBare key = true ↔ key.toList ≠ [] ∧ ∀ c ∈ key.toList, isBareKey c = true := by
  simp [isBare]

theorem exists_cons_of_isBare {key : String} (hkey : isBare key = true) :
    ∃ c cs, key.toList = c :: cs ∧ isBareKey c = true := by
  obtain ⟨hne, hbare⟩ := isBare_iff.1 hkey
  obtain ⟨c, cs, hcs⟩ := List.exists_cons_of_ne_nil hne
  exact ⟨c, cs, hcs, hbare c (by simp [hcs])⟩

theorem readKeyPart_bare {key : String} (hkey : isBare key = true) {tail : List Char}
    (htail : ∀ c ∈ tail.head?, isBareKey c = false) :
    readKeyPart (key.toList ++ tail) = some (key, tail) := by
  obtain ⟨hne, hbare⟩ := isBare_iff.1 hkey
  have htake : (key.toList ++ tail).takeWhile isBareKey = key.toList := by
    rw [List.takeWhile_append_of_pos hbare]
    cases tail <;> simp_all
  have hdrop : (key.toList ++ tail).dropWhile isBareKey = tail := by
    rw [List.dropWhile_append_of_pos hbare]
    cases tail <;> simp_all
  have hfront : ∀ {q : Char} {rest : List Char}, key.toList ++ tail = q :: rest →
      isBareKey q = true := by
    intro q rest h
    obtain ⟨c, cs, hcs, hc⟩ := exists_cons_of_isBare hkey
    rw [hcs] at h
    exact (List.cons.inj h).1 ▸ hc
  unfold readKeyPart
  split
  case h_1 h => exact absurd (hfront h) (by decide)
  case h_2 h => exact absurd (hfront h) (by decide)
  case h_3 => simp [htake, hdrop, hne]

/-- A key without quotes ends where its characters end, unless a dot follows. -/
theorem readKey_bare {key : String} (hkey : isBare key = true) {c : Char} {tail rest : List Char}
    (htail : ∀ d ∈ tail.head?, isBareKey d = false) (hskip : skipBlanks tail = c :: rest)
    (hdot : c ≠ '.') : readKey (key.toList ++ tail) = some ([key], c :: rest) := by
  have hblank : skipBlanks (key.toList ++ tail) = key.toList ++ tail := by
    obtain ⟨c, cs, hcs, hc⟩ := exists_cons_of_isBare hkey
    rw [hcs]
    exact skipBlanks_cons (not_isBlank_of_isBareKey hc) _
  rw [readKey, readKeyParts, hblank, readKeyPart_bare hkey htail]
  simp only [Option.bind_eq_bind, Option.bind_some, hskip]
  split
  case h_1 h => exact absurd (List.cons.inj h).1 hdot
  case h_2 => rfl

/-! ### Values -/

theorem readValue_writeText (fuel levels : Nat) (text : String) {rest : List Char}
    (hrest : NoQuote rest) :
    readValue (fuel + 1) levels (writeText text.toList ++ rest) = some (.string text, rest) := by
  have hread := readText_writeText text.toList hrest
  obtain ⟨q, tail, hwrite, hq⟩ := exists_writeText_eq_cons text.toList
  rw [hwrite, List.cons_append] at hread ⊢
  rw [readValue.eq_def]
  rcases hq with rfl | rfl <;> simp [hread]

theorem readValue_switch (fuel levels : Nat) (on : Bool) (rest : List Char) :
    readValue (fuel + 1) levels ((if on then "true" else "false").toList ++ '\n' :: rest) =
      some (.boolean on, '\n' :: rest) := by
  rw [readValue.eq_def]
  cases on <;> simp [readScalar, endsScalar, endsScalar.isBlankOrBreak, scalar?]

theorem readValue_bracket (fuel levels : Nat) (cs : List Char) :
    readValue (fuel + 1) (levels + 1) ('[' :: cs) = readItems fuel levels cs [] := by
  simp [readValue]

theorem skipFiller_writeText (cs rest : List Char) :
    skipFiller false (writeText cs ++ rest) = writeText cs ++ rest := by
  obtain ⟨q, tail, hwrite, hq⟩ := exists_writeText_eq_cons cs
  rw [hwrite, List.cons_append]
  rcases hq with rfl | rfl <;> simp [skipFiller, isBlank]

/-- Where an array does not end there is an item, after which the array goes on or ends. -/
theorem readItems_cons {fuel levels : Nat} {cs tail : List Char} {c : Char}
    (hskip : skipFiller false cs = c :: tail) (hc : c ≠ ']') (acc : List Value) :
    readItems (fuel + 1) levels cs acc =
      (readValue fuel levels (c :: tail)).bind fun (item, rest) =>
        match skipFiller false rest with
        | ',' :: rest => readItems fuel levels rest (item :: acc)
        | ']' :: rest => some (.array (item :: acc).reverse, rest)
        | _ => none := by
  rw [readItems, hskip]
  split
  case h_1 h => exact absurd (List.cons.inj h).1 hc
  case h_2 => rfl

theorem readItems_writeText {fuel levels : Nat} {cs rest : List Char} (text : String)
    (hskip : skipFiller false cs = writeText text.toList ++ rest) (hrest : NoQuote rest)
    (acc : List Value) :
    readItems (fuel + 2) levels cs acc =
      match skipFiller false rest with
      | ',' :: rest => readItems (fuel + 1) levels rest (.string text :: acc)
      | ']' :: rest => some (.array (.string text :: acc).reverse, rest)
      | _ => none := by
  have hvalue := readValue_writeText fuel levels text hrest
  obtain ⟨q, written, hwrite, hq⟩ := exists_writeText_eq_cons text.toList
  have hitem : q ≠ ']' := by rcases hq with rfl | rfl <;> decide
  rw [hwrite, List.cons_append] at hskip hvalue
  rw [readItems_cons hskip hitem, hvalue]
  rfl

/-! ### Lines -/

/-- A line with a key and its value. -/
theorem readPair_line {key : String} (hkey : isBare key = true) {written rest : List Char}
    {value : Value} (hblank : skipBlanks (written ++ '\n' :: rest) = written ++ '\n' :: rest)
    (hvalue : ∀ fuel, written.length < fuel →
      readValue fuel (maxLevels - 1) (written ++ '\n' :: rest) = some (value, '\n' :: rest)) :
    readPair (key.toList ++ ' ' :: '=' :: ' ' :: (written ++ '\n' :: rest)) =
      some (([key], value), rest) := by
  have hread : readKey (key.toList ++ ' ' :: '=' :: ' ' :: (written ++ '\n' :: rest)) =
      some ([key], '=' :: ' ' :: (written ++ '\n' :: rest)) :=
    readKey_bare hkey (by simp [isBareKey]) rfl (by decide)
  rw [readPair, hread]
  simp only [Option.bind_eq_bind, Option.bind_some]
  rw [skipBlanks_space, hblank, hvalue]
  · rfl
  · simp only [List.length_cons, List.length_append]
    omega

section
variable {fuel : Nat} {current : Section} {key : String} {tail rest : List Char}

theorem readSections_pair {pair : List String × Value} (hkey : isBare key = true)
    (hpair : readPair (key.toList ++ tail) = some (pair, rest)) :
    readSections (fuel + 1) current (key.toList ++ tail) =
      readSections fuel { current with pairs := pair :: current.pairs } rest := by
  obtain ⟨c, cs, hcs, hc⟩ := exists_cons_of_isBare hkey
  rw [hcs, List.cons_append] at hpair ⊢
  rw [readSections, skipBlanks_cons (not_isBlank_of_isBareKey hc)]
  split
  case h_1 h => cases h
  case h_2 h => exact absurd (List.cons.inj h).1 (ne_of_isBareKey hc (by decide))
  case h_3 h =>
    obtain ⟨rfl, rfl⟩ := List.cons.inj h
    have hcomment := ne_of_isBareKey hc (by decide : isBareKey '#' = false)
    have hbreak := ne_of_isBareKey hc (by decide : isBareKey '\n' = false)
    have hreturn := ne_of_isBareKey hc (by decide : isBareKey '\r' = false)
    simp [hcomment, hbreak, hreturn, hpair]

theorem readSections_break :
    readSections (fuel + 1) current ('\n' :: rest) = readSections fuel current rest := by
  simp [readSections, skipBlanks, isBlank, restOfLine?, skipComment, lineEnd?]

theorem readHeader_table (hkey : isBare key = true) :
    readHeader ('[' :: (key.toList ++ ']' :: '\n' :: rest)) = some (.table [key], rest) := by
  have hread : readKey (key.toList ++ ']' :: '\n' :: rest) = some ([key], ']' :: '\n' :: rest) :=
    readKey_bare hkey (by simp [isBareKey]) rfl (by decide)
  obtain ⟨c, cs, hcs, hc⟩ := exists_cons_of_isBare hkey
  rw [hcs, List.cons_append] at hread ⊢
  unfold readHeader
  split
  case h_1 h =>
    have hbracket : c = '[' := by simp_all
    exact absurd hbracket (ne_of_isBareKey hc (by decide))
  case h_2 h =>
    obtain rfl := (List.cons.inj h).2
    rw [hread]
    rfl
  case h_3 h => exact absurd rfl (h _)

theorem readSections_header (hkey : isBare key = true) :
    readSections (fuel + 1) current ('[' :: (key.toList ++ ']' :: '\n' :: rest)) =
      (readSections fuel { header := .table [key] } rest).map (current.close :: ·) := by
  rw [readSections, skipBlanks_cons (by decide)]
  simp only [readHeader_table hkey, Option.bind_eq_bind, Option.bind_some]
  cases readSections fuel { header := .table [key] } rest <;> rfl

end

end Toml

namespace Settings

open Toml

/-- The lines of the items of an array. -/
def itemLines (texts : List String) : List Char :=
  texts.flatMap fun text => "    ".toList ++ writeText text.toList ++ ",\n".toList

theorem itemLines_cons (text : String) (texts : List String) :
    itemLines (text :: texts) =
      ' ' :: ' ' :: ' ' :: ' ' :: (writeText text.toList ++ ',' :: '\n' :: itemLines texts) := by
  simp [itemLines]

theorem length_le_itemLines (texts : List String) : texts.length ≤ (itemLines texts).length := by
  induction texts with
  | nil => exact Nat.zero_le _
  | cons text texts ih =>
      rw [itemLines_cons]
      simp only [List.length_cons, List.length_append]
      omega

/-- Each line adds its item, and the bracket after the last line closes the array. -/
theorem readItems_writeTextLines {fuel : Nat} (levels : Nat) (texts : List String)
    (hfuel : texts.length < fuel) (acc : List Value) (rest : List Char) :
    readItems fuel levels ('\n' :: (itemLines texts ++ ']' :: rest)) acc =
      some (.array (acc.reverse ++ texts.map .string), rest) := by
  induction texts generalizing fuel acc with
  | nil =>
      obtain ⟨fuel, rfl⟩ := Nat.exists_eq_succ_of_ne_zero (Nat.ne_of_gt hfuel)
      simp [itemLines, readItems, skipFiller, isBlank]
  | cons text texts ih =>
      rw [List.length_cons] at hfuel
      obtain ⟨fuel, rfl⟩ := Nat.exists_eq_add_of_le' (Nat.le_trans (by omega) hfuel : 2 ≤ fuel)
      have hskip : skipFiller false ('\n' :: (itemLines (text :: texts) ++ ']' :: rest)) =
          writeText text.toList ++ ',' :: '\n' :: (itemLines texts ++ ']' :: rest) := by
        rw [itemLines_cons]
        simp [skipFiller, isBlank, skipFiller_writeText]
      rw [readItems_writeText text hskip (.cons (by decide) _)]
      simpa [skipFiller, isBlank] using ih (by omega) (.string text :: acc)

theorem renderTexts_lines (first second : String) (texts : List String) :
    renderTexts (first :: second :: texts) =
      '[' :: '\n' :: (itemLines (first :: second :: texts) ++ [']']) := by
  simp [renderTexts, itemLines]

/-- An array of texts is read back, with fuel for each of them. -/
theorem readValue_renderTexts {fuel : Nat} (levels : Nat) (texts : List String)
    (hfuel : texts.length + 1 < fuel) (rest : List Char) :
    readValue fuel (levels + 1) (renderTexts texts ++ rest) =
      some (.array (texts.map .string), rest) := by
  obtain ⟨fuel, rfl⟩ := Nat.exists_eq_add_of_le' (Nat.le_trans (by omega) hfuel : 1 ≤ fuel)
  match texts with
  | [] =>
      obtain ⟨fuel, rfl⟩ := Nat.exists_eq_add_of_le' (Nat.lt_of_succ_lt_succ hfuel : 1 ≤ fuel)
      simp [renderTexts, readValue_bracket, readItems, skipFiller, isBlank]
  | [text] =>
      obtain ⟨fuel, rfl⟩ := Nat.exists_eq_add_of_le' (Nat.lt_of_succ_lt_succ hfuel : 2 ≤ fuel)
      have hskip := skipFiller_writeText text.toList (']' :: rest)
      simp only [renderTexts, List.append_assoc, List.cons_append, List.nil_append]
      rw [readValue_bracket, readItems_writeText text hskip (.cons (by decide) _)]
      simp [skipFiller, isBlank]
  | first :: second :: texts =>
      simp only [renderTexts_lines, List.append_assoc, List.cons_append, List.nil_append]
      rw [readValue_bracket, readItems_writeTextLines levels _ (by omega)]
      simp

theorem length_lt_renderTexts (texts : List String) :
    texts.length < (renderTexts texts).length := by
  match texts with
  | [] => simp [renderTexts]
  | [text] => simp [renderTexts]
  | first :: second :: texts =>
      have hlines := length_le_itemLines (first :: second :: texts)
      rw [renderTexts_lines]
      simp only [List.length_cons, List.length_append] at hlines ⊢
      omega

/-! ### The document -/

theorem readPair_exclude (texts : List String) (rest : List Char) :
    readPair ("exclude".toList ++ ' ' :: '=' :: ' ' :: (renderTexts texts ++ '\n' :: rest)) =
      some ((["exclude"], .array (texts.map .string)), rest) := by
  have hlength := length_lt_renderTexts texts
  refine readPair_line rfl ?_ fun fuel hfuel => ?_
  · unfold renderTexts
    split <;> exact skipBlanks_cons (by decide) _
  · exact readValue_renderTexts (maxLevels - 2) texts (by omega) _

theorem readPair_renderSwitch {key : String} (hkey : isBare key = true) (on : Bool)
    (rest : List Char) :
    readPair (renderSwitch key on ++ rest) = some (([key], .boolean on), rest) := by
  have hline : renderSwitch key on ++ rest = key.toList ++ ' ' :: '=' :: ' ' ::
      ((if on then "true" else "false").toList ++ '\n' :: rest) := by
    simp [renderSwitch]
  rw [hline]
  refine readPair_line hkey ?_ fun fuel hfuel => ?_
  · cases on <;> exact skipBlanks_cons (by decide) _
  · obtain ⟨fuel, rfl⟩ := Nat.exists_eq_succ_of_ne_zero (Nat.ne_zero_of_lt hfuel)
    exact readValue_switch fuel _ on rest

/-- The sections that settings are written in. -/
def sections (s : Settings) : List Section :=
  [{ header := .top, pairs := [(["exclude"], .array (s.exclude.map .string))] },
    { header := .table ["analysis"]
      pairs :=
        [([esmKey], .boolean s.analysis.esm), ([commonJsKey], .boolean s.analysis.commonJs),
          ([windowKey], .boolean s.analysis.window)] }]

theorem toList_render (s : Settings) :
    s.render.toList =
      "exclude".toList ++ ' ' :: '=' :: ' ' :: (renderTexts s.exclude ++ '\n' :: '\n' ::
        '[' :: ("analysis".toList ++ ']' :: '\n' ::
          (renderSwitch esmKey s.analysis.esm ++ (renderSwitch commonJsKey s.analysis.commonJs ++
            (renderSwitch windowKey s.analysis.window ++ []))))) := by
  have hexclude : "exclude = ".toList = "exclude".toList ++ [' ', '=', ' '] := rfl
  have hheader : "\n\n[analysis]\n".toList =
      '\n' :: '\n' :: '[' :: ("analysis".toList ++ [']', '\n']) := rfl
  unfold render
  rw [String.toList_ofList, hexclude, hheader]
  simp only [List.append_assoc, List.cons_append, List.nil_append, List.append_nil]

/-- Seven steps read the document: a pair, an empty line, a header, three pairs and the end. -/
theorem readSections_render (s : Settings) (fuel : Nat) :
    readSections (fuel + 7) { header := .top } s.render.toList = some s.sections := by
  have hswitch : ∀ {n : Nat} {current : Section} {key : String} (on : Bool) (rest : List Char),
      isBare key = true → readSections (n + 1) current (renderSwitch key on ++ rest) =
        readSections n { current with pairs := ([key], .boolean on) :: current.pairs } rest := by
    intro n current key on rest hkey
    have hpair := readPair_renderSwitch hkey on rest
    rw [renderSwitch, List.append_assoc, List.append_assoc, List.append_assoc] at hpair ⊢
    exact readSections_pair hkey hpair
  rw [toList_render, readSections_pair rfl (readPair_exclude _ _), readSections_break,
    readSections_header rfl, hswitch _ _ rfl, hswitch _ _ rfl, hswitch _ _ rfl]
  simp [readSections, skipBlanks, Section.close, sections]

theorem exclude?_strings (texts : List String) :
    exclude? (.array (texts.map .string)) = some texts := by
  rw [exclude?]
  induction texts with
  | nil => rfl
  | cons text texts ih =>
      rw [List.map_cons, List.mapM_cons, ih]
      rfl

theorem ofSections?_sections (s : Settings) :
    (Fields.ofSections? s.sections).bind ofFields? = some s := by
  simp [Fields.ofSections?, sections, Fields.addSection?, Fields.insertAll?, Fields.insert?,
    Fields.find?, Fields.descend?, Fields.addTable?, ofFields?, exclude?_strings, analysis?,
    switch?, esmKey, commonJsKey, windowKey]

/-- **Settings are read back from their document.** -/
theorem parse_render (s : Settings) : parse s.render = some s := by
  have hfront : s.render.toList.head? ≠ some '\ufeff' := by
    rw [toList_render]
    change some 'e' ≠ some '\ufeff'
    decide
  have hlength : 7 ≤ s.render.toList.length + 1 := by
    rw [toList_render]
    simp only [List.length_append, List.length_cons]
    omega
  obtain ⟨fuel, hfuel⟩ := Nat.exists_eq_add_of_le' hlength
  rw [parse, Toml.parse]
  simp only [if_neg hfront, hfuel, readSections_render, Option.bind_some]
  exact ofSections?_sections s

end Settings

end ExportSurface
