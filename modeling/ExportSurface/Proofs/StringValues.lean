/-
String bodies decode to their values.

The value of a string literal is a row of sixteen-bit units: a body is a row of elements — plain
characters, escapes and line continuations — and each element stands for some units.  The decoder
works on characters instead.  An escape can name one half of a surrogate pair, which is a unit but
no character, so the decoder has to read two such escapes at once, and it gives up where the halves
do not match.  Elements also look ahead: a zero is an escape only before something other than a
digit, and a carriage return takes a line feed that follows it along.

Main definitions:

* `CodePoint.units`, `StringText.utf16` — the units of a code point and of a text;
* `StringText.Element` — an element of a body, with its text and its units;
* `StringText.Element.Fits` — an element is complete and may stand before the rest of a body;
* `StringText.Spells`, `StringText.StringValue` — a body as a row of elements, and its value;
* `StringText.Admissible` — no element stands for half a character.

Main results:

* `StringText.Spells.unique` — **a body is a row of elements in one way only**;
* `StringText.decode?_single`, `StringText.decode?_pair` — one step of the decoder;
* `StringText.exists_leads_of_decode?` — where the decoder goes on, it reads such a step;
* `StringText.decode?_eq_some_iff` — **what the decoder answers**;
* `StringText.decode?_string_value` — a text that is decoded has the value of its body, and every
  admissible body is decoded.
-/

import ExportSurface.JavaScript.StringText

set_option autoImplicit false

namespace ExportSurface

/-! ### Units -/

namespace CodePoint

/-- The sixteen-bit units that write a code point: itself, or a high and a low surrogate. -/
def units (n : Nat) : List Nat :=
  if n < 0x10000 then [n]
  else [0xD800 + (n - 0x10000) / 0x400, 0xDC00 + (n - 0x10000) % 0x400]

/-- The units that stand for half a character. -/
def IsSurrogate (n : Nat) : Prop := 0xD800 ≤ n ∧ n < 0xE000

theorem not_isSurrogate_toNat (c : Char) : ¬ IsSurrogate c.toNat := by
  have hvalid : c.toNat < 0xD800 ∨ 0xDFFF < c.toNat ∧ c.toNat < 0x110000 := c.valid
  rintro ⟨hlow, hhigh⟩
  omega

theorem toNat_ofNat {n : Nat} (hn : n.isValidChar) : (Char.ofNat n).toNat = n := by
  rw [Char.ofNat, dif_pos hn]
  rfl

theorem exists_char?_eq_some {n : Nat} (hmax : n ≤ 0x10FFFF) (hn : ¬ IsSurrogate n) :
    ∃ c, char? n = some c ∧ c.toNat = n := by
  have hvalid : n.isValidChar := by
    unfold IsSurrogate at hn
    unfold Nat.isValidChar
    omega
  exact ⟨Char.ofNat n, by rw [char?, if_pos hvalid], toNat_ofNat hvalid⟩

theorem toNat_of_char? {n : Nat} {c : Char} (h : char? n = some c) : c.toNat = n := by
  rw [char?, Option.ite_none_right_eq_some] at h
  rw [← Option.some.inj h.2]
  exact toNat_ofNat h.1

theorem units_ofPair {high low : Nat} (hhigh : 0xD800 ≤ high ∧ high < 0xDC00)
    (hlow : 0xDC00 ≤ low ∧ low < 0xE000) :
    (Char.ofNat (ofPair high low)).toNat = ofPair high low ∧
      units (ofPair high low) = [high, low] := by
  have hlarge : ¬ ofPair high low < 0x10000 := by unfold ofPair; omega
  have hvalid : (ofPair high low).isValidChar := by unfold Nat.isValidChar ofPair; omega
  have hfirst : 0xD800 + (ofPair high low - 0x10000) / 0x400 = high := by unfold ofPair; omega
  have hsecond : 0xDC00 + (ofPair high low - 0x10000) % 0x400 = low := by unfold ofPair; omega
  exact ⟨toNat_ofNat hvalid, by rw [units, if_neg hlarge, hfirst, hsecond]⟩

/-- The units of a character and of what follows it tell the character. -/
theorem units_append_inj {c d : Char} {us vs : List Nat}
    (h : units c.toNat ++ us = units d.toNat ++ vs) : c = d ∧ us = vs := by
  have hc := not_isSurrogate_toNat c
  have hd := not_isSurrogate_toNat d
  have hcvalid : c.toNat < 0xD800 ∨ 0xDFFF < c.toNat ∧ c.toNat < 0x110000 := c.valid
  have hdvalid : d.toNat < 0xD800 ∨ 0xDFFF < d.toNat ∧ d.toNat < 0x110000 := d.valid
  unfold IsSurrogate at hc hd
  unfold units at h
  rw [← Char.toNat_inj]
  split at h
  · split at h
    · simpa using h
    · simp at h
      omega
  · split at h
    · simp at h
      omega
    · simp at h
      exact ⟨by omega, h.2.2⟩

end CodePoint

namespace JavaScript.StringText

/-- The units of a text. -/
def utf16 (text : List Char) : List Nat := text.flatMap fun c => CodePoint.units c.toNat

theorem utf16_cons (c : Char) (text : List Char) :
    utf16 (c :: text) = CodePoint.units c.toNat ++ utf16 text :=
  List.flatMap_cons

theorem utf16_append (text text' : List Char) : utf16 (text ++ text') = utf16 text ++ utf16 text' :=
  List.flatMap_append

theorem utf16_cons_ne_nil (c : Char) (text : List Char) : utf16 (c :: text) ≠ [] := by
  rw [utf16_cons, CodePoint.units]
  split <;> simp

theorem utf16_injective {text text' : List Char} (h : utf16 text = utf16 text') :
    text = text' := by
  induction text generalizing text' with
  | nil =>
      cases text' with
      | nil => rfl
      | cons d text' => exact absurd h.symm (utf16_cons_ne_nil d text')
  | cons c text ih =>
      cases text' with
      | nil => exact absurd h (utf16_cons_ne_nil c text)
      | cons d text' =>
          rw [utf16_cons, utf16_cons] at h
          obtain ⟨rfl, htext⟩ := CodePoint.units_append_inj h
          rw [ih htext]

/-! ### Elements of a body -/

/-- The hexadecimal digits. -/
def hexDigits : List Char :=
  ['0', '1', '2', '3', '4', '5', '6', '7', '8', '9', 'a', 'b', 'c', 'd', 'e', 'f',
    'A', 'B', 'C', 'D', 'E', 'F']

def IsHex (c : Char) : Prop := c ∈ hexDigits

/-- The value of a hexadecimal digit; a letter has the same one in either case. -/
def digitValue (c : Char) : Nat :=
  match c with
  | '1' => 1
  | '2' => 2
  | '3' => 3
  | '4' => 4
  | '5' => 5
  | '6' => 6
  | '7' => 7
  | '8' => 8
  | '9' => 9
  | 'a' | 'A' => 10
  | 'b' | 'B' => 11
  | 'c' | 'C' => 12
  | 'd' | 'D' => 13
  | 'e' | 'E' => 14
  | 'f' | 'F' => 15
  | _ => 0

/-- The number that hexadecimal digits write. -/
def hexNumber (digits : List Char) : Nat := digits.foldl (fun n c => n * 16 + digitValue c) 0

/-- The characters that end a line. -/
def isLineTerminator (c : Char) : Bool :=
  c = '\n' || c = '\r' || c = '\u2028' || c = '\u2029'

/-- An element of a string body. -/
inductive Element where
  /-- A character that stands for itself. -/
  | plain (c : Char)
  /-- A backslash and a character: one of the control characters, or the character itself. -/
  | escaped (c : Char)
  /-- A backslash and a zero. -/
  | null
  /-- `\xHH`. -/
  | byte (a b : Char)
  /-- `\uHHHH`. -/
  | unit (a b c d : Char)
  /-- `\u` and digits in braces. -/
  | point (digits : List Char)
  /-- A backslash and a line break, which stand for nothing. -/
  | continuation (lineBreak : List Char)

namespace Element

/-- How an element is written. -/
def text : Element → List Char
  | .plain c => [c]
  | .escaped c => ['\\', c]
  | .null => ['\\', '0']
  | .byte a b => ['\\', 'x', a, b]
  | .unit a b c d => ['\\', 'u', a, b, c, d]
  | .point digits => '\\' :: 'u' :: '\x7b' :: (digits ++ ['\x7d'])
  | .continuation lineBreak => '\\' :: lineBreak

/-- The units that a character after a backslash stands for. -/
def escapedUnits (c : Char) : List Nat :=
  match c with
  | 'b' => [0x8]
  | 't' => [0x9]
  | 'n' => [0xA]
  | 'v' => [0xB]
  | 'f' => [0xC]
  | 'r' => [0xD]
  | _ => CodePoint.units c.toNat

/-- The units that an element stands for. -/
def units : Element → List Nat
  | .plain c => CodePoint.units c.toNat
  | .escaped c => escapedUnits c
  | .null => [0]
  | .byte a b => [hexNumber [a, b]]
  | .unit a b c d => [hexNumber [a, b, c, d]]
  | .point digits => CodePoint.units (hexNumber digits)
  | .continuation _ => []

/-- An element is complete, and may stand before the given rest of a body. -/
def Fits (rest : List Char) : Element → Prop
  | .plain c => c ≠ '\\'
  | .escaped c => c.isDigit = false ∧ c ≠ 'x' ∧ c ≠ 'u' ∧ isLineTerminator c = false
  | .null => ∀ c ∈ rest.head?, c.isDigit = false
  | .byte a b => IsHex a ∧ IsHex b
  | .unit a b c d => IsHex a ∧ IsHex b ∧ IsHex c ∧ IsHex d
  | .point digits => digits ≠ [] ∧ (∀ c ∈ digits, IsHex c) ∧ hexNumber digits ≤ 0x10FFFF
  | .continuation lineBreak => lineBreak = ['\r', '\n'] ∨
      ∃ c, lineBreak = [c] ∧ isLineTerminator c = true ∧ (c = '\r' → rest.head? ≠ some '\n')

/-- An element stands for whole characters. -/
def IsWhole : Element → Prop
  | .unit a b c d => ¬ CodePoint.IsSurrogate (hexNumber [a, b, c, d])
  | .point digits => ¬ CodePoint.IsSurrogate (hexNumber digits)
  | _ => True

end Element

/-- A body is written by a row of elements. -/
inductive Spells : List Element → List Char → Prop
  | nil : Spells [] []
  | cons {e : Element} {es : List Element} {rest : List Char} : e.Fits rest → Spells es rest →
      Spells (e :: es) (e.text ++ rest)

/-- The units that a row of elements stands for. -/
def unitsOf (es : List Element) : List Nat := es.flatMap Element.units

/-- The value of a body. -/
def StringValue (body : List Char) (value : List Nat) : Prop :=
  ∃ es, Spells es body ∧ unitsOf es = value

/-- Escapes for half a character come in pairs only: a high one, and a low one right after it. -/
inductive Admissible : List Element → Prop
  | nil : Admissible []
  | single {e : Element} {es : List Element} : e.IsWhole → Admissible es → Admissible (e :: es)
  | pair {a b c d a' b' c' d' : Char} {es : List Element} :
      0xD800 ≤ hexNumber [a, b, c, d] ∧ hexNumber [a, b, c, d] < 0xDC00 →
      0xDC00 ≤ hexNumber [a', b', c', d'] ∧ hexNumber [a', b', c', d'] < 0xE000 →
      Admissible es → Admissible (.unit a b c d :: .unit a' b' c' d' :: es)

/-! ### A body has one row of elements -/

theorem not_isHex_brace : ¬ IsHex '\x7b' ∧ ¬ IsHex '\x7d' := by
  simp [IsHex, hexDigits]

theorem digits_append_inj {ds ds' rest rest' : List Char} (h : ∀ c ∈ ds, IsHex c)
    (h' : ∀ c ∈ ds', IsHex c) (heq : ds ++ '\x7d' :: rest = ds' ++ '\x7d' :: rest') :
    ds = ds' ∧ rest = rest' := by
  induction ds generalizing ds' with
  | nil =>
      cases ds' with
      | nil => exact ⟨rfl, (List.cons.inj heq).2⟩
      | cons d ds' =>
          obtain ⟨rfl, -⟩ := List.cons.inj heq
          exact absurd (h' _ List.mem_cons_self) not_isHex_brace.2
  | cons c ds ih =>
      cases ds' with
      | nil =>
          obtain ⟨rfl, -⟩ := List.cons.inj heq
          exact absurd (h _ List.mem_cons_self) not_isHex_brace.2
      | cons d ds' =>
          obtain ⟨rfl, htail⟩ := List.cons.inj heq
          obtain ⟨rfl, hrest⟩ := ih (fun c hc => h c (List.mem_cons_of_mem _ hc))
            (fun c hc => h' c (List.mem_cons_of_mem _ hc)) htail
          exact ⟨rfl, hrest⟩

/-- What the first two characters of an element tell about it. -/
inductive Shape where
  | plain
  | escaped
  | null
  | byte
  | codePoint
  | continuation

def Element.shape : Element → Shape
  | .plain _ => .plain
  | .escaped _ => .escaped
  | .null => .null
  | .byte _ _ => .byte
  | .unit _ _ _ _ => .codePoint
  | .point _ => .codePoint
  | .continuation _ => .continuation

def shapeOf : List Char → Shape
  | '\\' :: c :: _ =>
      if c = '0' then .null
      else if c = 'x' then .byte
      else if c = 'u' then .codePoint
      else if isLineTerminator c then .continuation
      else .escaped
  | _ => .plain

theorem ne_of_isLineTerminator {c : Char} (h : isLineTerminator c = true) :
    c ≠ '0' ∧ c ≠ 'x' ∧ c ≠ 'u' := by
  refine ⟨?_, ?_, ?_⟩ <;> rintro rfl <;> exact absurd h (by decide)

theorem Element.Fits.shapeOf {e : Element} {rest : List Char} (h : e.Fits rest) :
    shapeOf (e.text ++ rest) = e.shape := by
  cases e with
  | plain c =>
      have hc : c ≠ '\\' := h
      rw [Element.text, List.singleton_append, StringText.shapeOf.eq_def]
      split <;> simp_all [Element.shape]
  | escaped c =>
      obtain ⟨hdigit, hx, hu, hline⟩ := h
      have hzero : c ≠ '0' := by
        rintro rfl
        exact absurd hdigit (by decide)
      simp [Element.text, StringText.shapeOf, Element.shape, hzero, hx, hu, hline]
  | continuation lineBreak =>
      rcases h with rfl | ⟨c, rfl, hline, -⟩
      · rfl
      · obtain ⟨hzero, hx, hu⟩ := ne_of_isLineTerminator hline
        simp [Element.text, StringText.shapeOf, Element.shape, hzero, hx, hu, hline]
  | _ => rfl

theorem continuation_append_inj {b b' rest rest' : List Char}
    (h : (Element.continuation b).Fits rest) (h' : (Element.continuation b').Fits rest')
    (heq : b ++ rest = b' ++ rest') : b = b' ∧ rest = rest' := by
  rcases h with rfl | ⟨c, rfl, -, hc⟩ <;> rcases h' with rfl | ⟨c', rfl, -, hc'⟩
  · simpa using heq
  · obtain ⟨rfl, rfl⟩ : '\r' = c' ∧ '\n' :: rest = rest' := by simpa using heq
    exact absurd rfl (hc' rfl)
  · obtain ⟨rfl, rfl⟩ : c = '\r' ∧ rest = '\n' :: rest' := by simpa using heq
    exact absurd rfl (hc rfl)
  · simpa using heq

/-- An element that may stand before the rest of a body is told by its text. -/
theorem Element.text_append_inj {e e' : Element} {rest rest' : List Char} (h : e.Fits rest)
    (h' : e'.Fits rest') (heq : e.text ++ rest = e'.text ++ rest') : e = e' ∧ rest = rest' := by
  have hshape : e.shape = e'.shape := by rw [← h.shapeOf, ← h'.shapeOf, heq]
  -- Of one shape are only elements of one kind, and the two kinds of escapes for code points.
  cases e with
  | plain c =>
      cases e' with
      | plain c' => simpa [Element.text] using heq
      | _ => cases hshape
  | escaped c =>
      cases e' with
      | escaped c' => simpa [Element.text] using heq
      | _ => cases hshape
  | null =>
      cases e' with
      | null => simpa [Element.text] using heq
      | _ => cases hshape
  | byte a b =>
      cases e' with
      | byte a' b' => simpa [Element.text, and_assoc] using heq
      | _ => cases hshape
  | unit a b c d =>
      cases e' with
      | unit a' b' c' d' => simpa [Element.text, and_assoc] using heq
      | point digits =>
          obtain ⟨rfl, -⟩ : a = '\x7b' ∧ _ := by simpa [Element.text] using heq
          exact absurd h.1 not_isHex_brace.1
      | _ => cases hshape
  | point digits =>
      cases e' with
      | unit a b c d =>
          obtain ⟨rfl, -⟩ : '\x7b' = a ∧ _ := by simpa [Element.text] using heq
          exact absurd h'.1 not_isHex_brace.1
      | point digits' =>
          obtain ⟨rfl, rfl⟩ := digits_append_inj h.2.1 h'.2.1 (by simpa [Element.text] using heq)
          exact ⟨rfl, rfl⟩
      | _ => cases hshape
  | continuation b =>
      cases e' with
      | continuation b' =>
          obtain ⟨rfl, rfl⟩ := continuation_append_inj h h' (by simpa [Element.text] using heq)
          exact ⟨rfl, rfl⟩
      | _ => cases hshape

theorem Element.text_append_ne_nil (e : Element) (rest : List Char) : e.text ++ rest ≠ [] := by
  cases e <;> simp [Element.text]

/-- **A body is a row of elements in one way only.** -/
theorem Spells.unique {es es' : List Element} {body : List Char} (h : Spells es body)
    (h' : Spells es' body) : es = es' := by
  induction h generalizing es' with
  | nil =>
      generalize hbody : ([] : List Char) = body at h'
      cases h' with
      | nil => rfl
      | cons _ _ => exact absurd hbody.symm (Element.text_append_ne_nil _ _)
  | cons hfits _ ih =>
      rename_i e es rest _
      generalize hbody : e.text ++ rest = body at h'
      cases h' with
      | nil => exact absurd hbody (Element.text_append_ne_nil _ _)
      | cons hfits' hes' =>
          obtain ⟨rfl, rfl⟩ := Element.text_append_inj hfits hfits' hbody
          rw [ih hes']

/-! ### One step of the decoder -/

/-- **The reader has the values of the digits.** -/
theorem hexValue?_of_isHex {c : Char} (h : IsHex c) : Digit.hexValue? c = some (digitValue c) := by
  simp only [IsHex, hexDigits, List.mem_cons, List.not_mem_nil, or_false] at h
  rcases h with rfl | rfl | rfl | rfl | rfl | rfl | rfl | rfl | rfl | rfl | rfl | rfl | rfl | rfl |
    rfl | rfl | rfl | rfl | rfl | rfl | rfl | rfl <;> rfl

theorem isHex_of_toNat {c : Char}
    (h : 48 ≤ c.toNat ∧ c.toNat ≤ 57 ∨ 97 ≤ c.toNat ∧ c.toNat ≤ 102 ∨
      65 ≤ c.toNat ∧ c.toNat ≤ 70) : IsHex c := by
  have hmem : c.toNat ∈ hexDigits.map Char.toNat := by
    simp only [hexDigits, List.map_cons, List.map_nil, List.mem_cons, List.not_mem_nil, or_false,
      Char.reduceToNat]
    omega
  obtain ⟨d, hd, heq⟩ := List.mem_map.1 hmem
  rwa [Char.toNat_inj.1 heq] at hd

/-- The reader takes nothing else for a digit. -/
theorem isHex_of_isSome_hexValue? {c : Char} (h : (Digit.hexValue? c).isSome) : IsHex c := by
  rw [Digit.hexValue?] at h
  split at h
  · next hdigit =>
      simp only [Char.isDigit, Bool.and_eq_true, decide_eq_true_eq] at hdigit
      exact isHex_of_toNat (.inl hdigit)
  · split at h
    · next hlower => exact isHex_of_toNat (.inr (.inl hlower))
    · split at h
      · next hupper => exact isHex_of_toNat (.inr (.inr hupper))
      · cases h

theorem digitValue_lt (c : Char) : digitValue c < 16 := by
  unfold digitValue
  split <;> decide

theorem hexNumber_two_lt (a b : Char) : hexNumber [a, b] < 0x100 := by
  have ha := digitValue_lt a
  have hb := digitValue_lt b
  simp only [hexNumber, List.foldl_cons, List.foldl_nil]
  omega

theorem hexNumber_four_lt (a b c d : Char) : hexNumber [a, b, c, d] < 0x10000 := by
  have hab := hexNumber_two_lt a b
  have hc := digitValue_lt c
  have hd := digitValue_lt d
  simp only [hexNumber, List.foldl_cons, List.foldl_nil] at hab ⊢
  omega

theorem hex4?_of_isHex {a b c d : Char} (h : IsHex a ∧ IsHex b ∧ IsHex c ∧ IsHex d) :
    Digit.hex4? a b c d = some (hexNumber [a, b, c, d]) := by
  obtain ⟨ha, hb, hc, hd⟩ := h
  simp [Digit.hex4?, hexValue?_of_isHex, ha, hb, hc, hd, hexNumber]

theorem isHex_of_hexValue? {c : Char} {n : Nat} (h : Digit.hexValue? c = some n) :
    IsHex c ∧ digitValue c = n := by
  have hhex : IsHex c := isHex_of_isSome_hexValue? (by rw [h]; rfl)
  rw [hexValue?_of_isHex hhex] at h
  exact ⟨hhex, Option.some.inj h⟩

theorem isHex_of_hex4? {a b c d : Char} {n : Nat} (h : Digit.hex4? a b c d = some n) :
    (IsHex a ∧ IsHex b ∧ IsHex c ∧ IsHex d) ∧ n = hexNumber [a, b, c, d] := by
  simp only [Digit.hex4?, Option.bind_eq_bind, Option.bind_eq_some_iff, Option.pure_def,
    Option.some.injEq] at h
  obtain ⟨i, hi, j, hj, k, hk, l, hl, rfl⟩ := h
  obtain ⟨ha, rfl⟩ := isHex_of_hexValue? hi
  obtain ⟨hb, rfl⟩ := isHex_of_hexValue? hj
  obtain ⟨hc, rfl⟩ := isHex_of_hexValue? hk
  obtain ⟨hd, rfl⟩ := isHex_of_hexValue? hl
  exact ⟨⟨ha, hb, hc, hd⟩, by simp [hexNumber]⟩

theorem isHex_of_hex2? {a b : Char} {n : Nat} (h : hex2? a b = some n) : IsHex a ∧ IsHex b := by
  simp only [hex2?, Option.bind_eq_bind, Option.bind_eq_some_iff] at h
  obtain ⟨i, hi, j, hj, -⟩ := h
  exact ⟨(isHex_of_hexValue? hi).1, (isHex_of_hexValue? hj).1⟩

/-- The text that a body decodes to starts with some characters, and the rest of the body gives the
rest of it. -/
def Reads (written text rest : List Char) : Prop :=
  decode? (written ++ rest) = (decode? rest).map (text ++ ·)

theorem reads_plain {c : Char} (hc : c ≠ '\\') (rest : List Char) : Reads [c] [c] rest := by
  rw [Reads, List.singleton_append, decode?.eq_def]
  split <;> simp_all

theorem reads_byte {a b : Char} (h : IsHex a ∧ IsHex b) (rest : List Char) :
    Reads ['\\', 'x', a, b] [Char.ofNat (hexNumber [a, b])] rest := by
  simp [Reads, decode?, hex2?, hexValue?_of_isHex, h.1, h.2, hexNumber]

theorem reads_null {rest : List Char} (h : ∀ c ∈ rest.head?, c.isDigit = false) :
    Reads ['\\', '0'] ['\x00'] rest := by
  have hdigit : rest.head?.any Char.isDigit = false := by
    cases hhead : rest.head? with
    | none => rfl
    | some c => exact h c (by simp [hhead])
  simp [Reads, decode?, control?, hdigit]

theorem reads_continuation {b rest : List Char} (h : (Element.continuation b).Fits rest) :
    Reads ('\\' :: b) [] rest := by
  rcases h with rfl | ⟨c, rfl, hline, hreturn⟩
  · simp [Reads, decode?]
  · simp only [isLineTerminator, Bool.or_eq_true, decide_eq_true_eq] at hline
    obtain ((rfl | rfl) | rfl) | rfl := hline
    · simp [Reads, decode?, control?]
    · cases rest with
      | nil => simp [Reads, decode?, control?]
      | cons d rest =>
          have hd : d ≠ '\n' := by simpa using hreturn rfl
          simp [Reads, decode?, control?, hd]
    · simp [Reads, decode?, control?]
    · simp [Reads, decode?, control?]

theorem reads_escaped {c : Char} {rest : List Char} (h : (Element.escaped c).Fits rest) :
    Reads ['\\', c] [(control? c).getD c] rest := by
  obtain ⟨hdigit, hx, hu, hline⟩ := h
  simp only [isLineTerminator, Bool.or_eq_false_iff, decide_eq_false_iff_not] at hline
  obtain ⟨⟨⟨hfeed, hreturn⟩, hseparator⟩, hparagraph⟩ := hline
  have hzero : c ≠ '0' := by
    rintro rfl
    exact absurd hdigit (by decide)
  have hsep : c.toNat ≠ 0x2028 := fun h => hseparator (Char.toNat_inj.1 h)
  have hpar : c.toNat ≠ 0x2029 := fun h => hparagraph (Char.toNat_inj.1 h)
  rw [Reads, List.cons_append, List.singleton_append, decode?]
  cases control? c with
  | some x => simp
  | none => simp [hzero, hdigit, hfeed, hreturn, hsep, hpar]
  all_goals simp [hx, hu, hreturn]

theorem isHighSurrogate_iff {n : Nat} :
    CodePoint.isHighSurrogate n = true ↔ 0xD800 ≤ n ∧ n < 0xDC00 := by
  rw [CodePoint.isHighSurrogate, Bool.and_eq_true, decide_eq_true_eq, decide_eq_true_eq]

theorem isLowSurrogate_iff {n : Nat} :
    CodePoint.isLowSurrogate n = true ↔ 0xDC00 ≤ n ∧ n < 0xE000 := by
  rw [CodePoint.isLowSurrogate, Bool.and_eq_true, decide_eq_true_eq, decide_eq_true_eq]

theorem reads_unit {a b c d : Char} (h : IsHex a ∧ IsHex b ∧ IsHex c ∧ IsHex d)
    {x : Char} (hx : CodePoint.char? (hexNumber [a, b, c, d]) = some x) (rest : List Char) :
    Reads ['\\', 'u', a, b, c, d] [x] rest := by
  have hbrace : a ≠ '\x7b' := by
    rintro rfl
    exact not_isHex_brace.1 h.1
  have hhigh : CodePoint.isHighSurrogate (hexNumber [a, b, c, d]) = false := by
    have hnot := CodePoint.not_isSurrogate_toNat x
    rw [CodePoint.toNat_of_char? hx, CodePoint.IsSurrogate] at hnot
    rw [← Bool.not_eq_true, isHighSurrogate_iff]
    omega
  simp [Reads, decode?, hex4?_of_isHex h, hhigh, hx]

theorem reads_pair {a b c d a' b' c' d' : Char} (h : IsHex a ∧ IsHex b ∧ IsHex c ∧ IsHex d)
    (h' : IsHex a' ∧ IsHex b' ∧ IsHex c' ∧ IsHex d')
    (hhigh : 0xD800 ≤ hexNumber [a, b, c, d] ∧ hexNumber [a, b, c, d] < 0xDC00)
    (hlow : 0xDC00 ≤ hexNumber [a', b', c', d'] ∧ hexNumber [a', b', c', d'] < 0xE000)
    (rest : List Char) :
    Reads ((Element.unit a b c d).text ++ (Element.unit a' b' c' d').text)
      [Char.ofNat (CodePoint.ofPair (hexNumber [a, b, c, d]) (hexNumber [a', b', c', d']))]
      rest := by
  have hbrace : a ≠ '\x7b' := by
    rintro rfl
    exact not_isHex_brace.1 h.1
  rw [← isHighSurrogate_iff] at hhigh
  rw [← isLowSurrogate_iff] at hlow
  simp [Reads, Element.text, decode?, hex4?_of_isHex h, hex4?_of_isHex h', hhigh, hlow]

/-- The digits of an escape in braces, after those that were read before. -/
theorem decodeBraced?_digits {digits : List Char} (h : ∀ c ∈ digits, IsHex c) (n : Nat)
    (some? : Bool) (hsome : some? = true ∨ digits ≠ []) (rest : List Char) :
    decodeBraced? n some? (digits ++ '\x7d' :: rest) =
      (CodePoint.char? (digits.foldl (fun n c => n * 16 + digitValue c) n)).bind fun x =>
        (decode? rest).map (x :: ·) := by
  induction digits generalizing n some? with
  | nil =>
      obtain rfl : some? = true := by simpa using hsome
      rw [List.nil_append, decodeBraced?, List.foldl_nil]
      cases CodePoint.char? n <;> simp
  | cons c digits ih =>
      have hc := h c List.mem_cons_self
      have hbrace : c ≠ '\x7d' := by
        rintro rfl
        exact not_isHex_brace.2 hc
      rw [List.cons_append, decodeBraced?, hexValue?_of_isHex hc]
      simp [hbrace, ih (fun c hc => h c (List.mem_cons_of_mem _ hc))]

theorem reads_point {digits : List Char} (hdigits : digits ≠ []) (h : ∀ c ∈ digits, IsHex c)
    {x : Char} (hx : CodePoint.char? (hexNumber digits) = some x) (rest : List Char) :
    Reads (Element.point digits).text [x] rest := by
  have hread := decodeBraced?_digits h 0 false (.inr hdigits) rest
  rw [← hexNumber, hx] at hread
  simpa [Reads, Element.text, decode?] using hread

theorem escapedUnits_eq (c : Char) :
    Element.escapedUnits c = CodePoint.units ((control? c).getD c).toNat := by
  unfold Element.escapedUnits control?
  split
  case h_7 => simp_all
  all_goals rfl

/-- An element that stands for whole characters is decoded to them. -/
theorem decode?_single {e : Element} {rest : List Char} (hfits : e.Fits rest)
    (hwhole : e.IsWhole) : ∃ text, e.units = utf16 text ∧ Reads e.text text rest := by
  cases e with
  | plain c => exact ⟨[c], by simp [Element.units, utf16], reads_plain hfits rest⟩
  | escaped c =>
      refine ⟨[(control? c).getD c], ?_, reads_escaped hfits⟩
      rw [Element.units, escapedUnits_eq]
      simp [utf16]
  | null => exact ⟨['\x00'], by decide, reads_null hfits⟩
  | byte a b =>
      have hlt := hexNumber_two_lt a b
      have hvalid : (hexNumber [a, b]).isValidChar := .inl (by omega)
      have hunits : CodePoint.units (hexNumber [a, b]) = [hexNumber [a, b]] := if_pos (by omega)
      refine ⟨[Char.ofNat (hexNumber [a, b])], ?_, reads_byte hfits rest⟩
      simp [Element.units, utf16, CodePoint.toNat_ofNat hvalid, hunits]
  | unit a b c d =>
      have hlt := hexNumber_four_lt a b c d
      obtain ⟨x, hx, htoNat⟩ := CodePoint.exists_char?_eq_some (by omega) hwhole
      have hunits : CodePoint.units (hexNumber [a, b, c, d]) = [hexNumber [a, b, c, d]] :=
        if_pos hlt
      refine ⟨[x], ?_, reads_unit hfits hx rest⟩
      simp [Element.units, utf16, htoNat, hunits]
  | point digits =>
      obtain ⟨hdigits, hhex, hmax⟩ := hfits
      obtain ⟨x, hx, htoNat⟩ := CodePoint.exists_char?_eq_some hmax hwhole
      refine ⟨[x], ?_, reads_point hdigits hhex hx rest⟩
      simp [Element.units, utf16, htoNat]
  | continuation b => exact ⟨[], rfl, reads_continuation hfits⟩

/-- Two escapes for the halves of a character are decoded to it. -/
theorem decode?_pair {a b c d a' b' c' d' : Char} (h : IsHex a ∧ IsHex b ∧ IsHex c ∧ IsHex d)
    (h' : IsHex a' ∧ IsHex b' ∧ IsHex c' ∧ IsHex d')
    (hhigh : 0xD800 ≤ hexNumber [a, b, c, d] ∧ hexNumber [a, b, c, d] < 0xDC00)
    (hlow : 0xDC00 ≤ hexNumber [a', b', c', d'] ∧ hexNumber [a', b', c', d'] < 0xE000)
    (rest : List Char) : ∃ text,
      (Element.unit a b c d).units ++ (Element.unit a' b' c' d').units = utf16 text ∧
      Reads ((Element.unit a b c d).text ++ (Element.unit a' b' c' d').text) text rest := by
  refine ⟨_, ?_, reads_pair h h' hhigh hlow rest⟩
  obtain ⟨htoNat, hunits⟩ := CodePoint.units_ofPair hhigh hlow
  simp [Element.units, utf16, htoNat, hunits]

/-- **An admissible body is decoded**, to a text that has its value. -/
theorem exists_decode?_of_admissible {es : List Element} {body : List Char} (h : Admissible es)
    (hbody : Spells es body) : ∃ text, decode? body = some text ∧ unitsOf es = utf16 text := by
  induction h generalizing body with
  | nil =>
      cases hbody
      exact ⟨[], by rw [decode?], rfl⟩
  | single hwhole _ ih =>
      cases hbody with
      | cons hfits hes =>
          obtain ⟨text, hunits, hreads⟩ := decode?_single hfits hwhole
          obtain ⟨text', htext', hunits'⟩ := ih hes
          refine ⟨text ++ text', by rw [hreads, htext', Option.map_some], ?_⟩
          rw [unitsOf, List.flatMap_cons, hunits, ← unitsOf, hunits', utf16_append]
  | pair hhigh hlow _ ih =>
      cases hbody with
      | cons hfits hes =>
          cases hes with
          | cons hfits' hes =>
              obtain ⟨text, hunits, hreads⟩ := decode?_pair hfits hfits' hhigh hlow _
              obtain ⟨text', htext', hunits'⟩ := ih hes
              refine ⟨text ++ text', ?_, ?_⟩
              · rw [← List.append_assoc, hreads, htext', Option.map_some]
              · rw [unitsOf, List.flatMap_cons, List.flatMap_cons, ← List.append_assoc, hunits,
                  ← unitsOf, hunits', utf16_append]

/-! ### What the decoder reads -/

/-- The digits that an escape in braces was read from. -/
theorem exists_digits_of_decodeBraced? {n : Nat} {some? : Bool} {cs text : List Char}
    (h : decodeBraced? n some? cs = some text) :
    ∃ digits rest, cs = digits ++ '\x7d' :: rest ∧ (∀ c ∈ digits, IsHex c) ∧
      (some? = true ∨ digits ≠ []) := by
  induction cs generalizing n some? with
  | nil => simp [decodeBraced?] at h
  | cons c rest ih =>
      rw [decodeBraced?] at h
      split at h
      case isTrue hclose =>
        simp only [Bool.and_eq_true, decide_eq_true_eq] at hclose
        exact ⟨[], rest, by rw [hclose.1]; rfl, by simp, .inl hclose.2⟩
      case isFalse =>
        split at h
        case h_1 d hd =>
          obtain ⟨digits, rest', rfl, hhex, -⟩ := ih h
          refine ⟨c :: digits, rest', rfl, ?_, .inr (List.cons_ne_nil c digits)⟩
          exact List.forall_mem_cons.2 ⟨(isHex_of_hexValue? hd).1, hhex⟩
        case h_2 => cases h

/-- A body goes on with an element for whole characters, or with the two halves of one. -/
inductive Leads (rest : List Char) : List Char → Prop
  | whole {e : Element} : e.Fits rest → e.IsWhole → Leads rest (e.text ++ rest)
  | halves {a b c d a' b' c' d' : Char} :
      (Element.unit a b c d).Fits ((Element.unit a' b' c' d').text ++ rest) →
      (Element.unit a' b' c' d').Fits rest →
      0xD800 ≤ hexNumber [a, b, c, d] ∧ hexNumber [a, b, c, d] < 0xDC00 →
      0xDC00 ≤ hexNumber [a', b', c', d'] ∧ hexNumber [a', b', c', d'] < 0xE000 →
      Leads rest ((Element.unit a b c d).text ++ ((Element.unit a' b' c' d').text ++ rest))

theorem not_isSurrogate_of_char? {n : Nat} {c : Char} (h : CodePoint.char? n = some c) :
    n ≤ 0x10FFFF ∧ ¬ CodePoint.IsSurrogate n := by
  have hvalid : c.toNat < 0xD800 ∨ 0xDFFF < c.toNat ∧ c.toNat < 0x110000 := c.valid
  rw [CodePoint.toNat_of_char? h] at hvalid
  rw [CodePoint.IsSurrogate]
  omega

theorem isDigit_of_control? {c x : Char} (h : control? c = some x) :
    c.isDigit = false ∧ isLineTerminator c = false := by
  unfold control? at h
  split at h
  case h_7 => cases h
  all_goals exact ⟨by decide, by decide⟩

/-- The line breaks as the decoder tells them, two of them by their code points. -/
theorem isLineTerminator_eq (c : Char) :
    (c = '\r' || c = '\n' || c.toNat = 0x2028 || c.toNat = 0x2029 : Bool) = isLineTerminator c := by
  have hline : c.toNat = '\u2028'.toNat ↔ c = '\u2028' := Char.toNat_inj
  have hparagraph : c.toNat = '\u2029'.toNat ↔ c = '\u2029' := Char.toNat_inj
  change (c = '\r' || c = '\n' || c.toNat = '\u2028'.toNat || c.toNat = '\u2029'.toNat : Bool) = _
  simp only [isLineTerminator, hline, hparagraph]
  rw [Bool.or_comm (decide (c = '\r'))]

/-- **Where the decoder goes on, it has something to read.** -/
theorem exists_leads_of_decode? {body text : List Char} (h : decode? body = some text)
    (hne : body ≠ []) : ∃ rest, Leads rest body := by
  -- Every case in which the decoder goes on names what it has read; in all others it gives up.
  fun_cases decode? body with
  | case1 => exact absurd rfl hne
  | case2 rest =>
      rw [decode?] at h
      obtain ⟨digits, rest, rfl, hhex, hsome⟩ := exists_digits_of_decodeBraced? h
      have hdigits : digits ≠ [] := by simpa using hsome
      rw [decodeBraced?_digits hhex 0 false hsome, Option.bind_eq_some_iff] at h
      obtain ⟨x, hx, -⟩ := h
      obtain ⟨hmax, hscalar⟩ := not_isSurrogate_of_char? hx
      have hleads : Leads rest ((Element.point digits).text ++ rest) :=
        .whole ⟨hdigits, hhex, hmax⟩ hscalar
      exact ⟨rest, by simpa [Element.text] using hleads⟩
  | case4 a b c d hbrace high hhigh hsurrogate a' b' c' d' rest low hlow hsurrogate' =>
      obtain ⟨hhex, rfl⟩ := isHex_of_hex4? hhigh
      obtain ⟨hhex', rfl⟩ := isHex_of_hex4? hlow
      exact ⟨rest, .halves hhex hhex' (isHighSurrogate_iff.1 hsurrogate)
        (isLowSurrogate_iff.1 hsurrogate')⟩
  | case8 a b c d rest hbrace n hn hhigh x hx =>
      obtain ⟨hhex, rfl⟩ := isHex_of_hex4? hn
      have hfits : (Element.unit a b c d).Fits rest := hhex
      exact ⟨rest, .whole hfits (not_isSurrogate_of_char? hx).2⟩
  | case11 a b rest n hn =>
      have hfits : (Element.byte a b).Fits rest := isHex_of_hex2? hn
      exact ⟨rest, .whole hfits trivial⟩
  | case14 rest =>
      have hfits : (Element.continuation ['\r', '\n']).Fits rest := .inl rfl
      exact ⟨rest, .whole hfits trivial⟩
  | case15 c rest _ _ hu _ hx _ x hcontrol =>
      obtain ⟨hdigit, hline⟩ := isDigit_of_control? hcontrol
      have hfits : (Element.escaped c).Fits rest := ⟨hdigit, hx, hu, hline⟩
      exact ⟨rest, .whole hfits trivial⟩
  | case16 c rest _ _ _ _ _ _ _ hzero =>
      simp only [Bool.and_eq_true, decide_eq_true_eq, Bool.not_eq_true'] at hzero
      obtain ⟨rfl, hhead⟩ := hzero
      have hfits : Element.null.Fits rest := by
        intro d hd
        rw [Option.mem_def.1 hd] at hhead
        simpa using hhead
      exact ⟨rest, .whole hfits trivial⟩
  | case18 c rest _ _ _ _ _ hreturn _ _ _ hline =>
      rw [isLineTerminator_eq] at hline
      have hfits : (Element.continuation [c]).Fits rest := by
        refine .inr ⟨c, rfl, hline, ?_⟩
        intro hc hhead
        obtain ⟨tail, rfl⟩ := List.head?_eq_some_iff.1 hhead
        exact hreturn tail hc rfl
      exact ⟨rest, .whole hfits trivial⟩
  | case19 c rest _ _ hu _ hx _ _ _ hdigit hline =>
      rw [isLineTerminator_eq, Bool.not_eq_true] at hline
      rw [Bool.not_eq_true] at hdigit
      have hfits : (Element.escaped c).Fits rest := ⟨hdigit, hx, hu, hline⟩
      exact ⟨rest, .whole hfits trivial⟩
  | case21 c rest _ _ _ _ _ _ hescape halone =>
      have hfits : (Element.plain c).Fits rest := by
        intro hc
        cases rest with
        | nil => exact halone hc rfl
        | cons d rest => exact hescape d rest hc rfl
      exact ⟨rest, .whole hfits trivial⟩
  | _ => simp_all [decode?]

theorem Leads.length_lt {rest body : List Char} (h : Leads rest body) :
    rest.length < body.length := by
  have htext : ∀ e : Element, 0 < e.text.length := by
    intro e
    cases e <;> simp [Element.text]
  cases h with
  | @whole e _ _ =>
      have he := htext e
      rw [List.length_append]
      omega
  | halves _ _ _ _ =>
      simp only [List.length_append, Element.text, List.length_cons]
      omega

theorem Leads.isSome_decode? {rest body : List Char} (h : Leads rest body) :
    (decode? body).isSome = (decode? rest).isSome := by
  cases h with
  | whole hfits hwhole =>
      obtain ⟨text, -, hreads⟩ := decode?_single hfits hwhole
      rw [hreads, Option.isSome_map]
  | halves hfits hfits' hhigh hlow =>
      obtain ⟨text, -, hreads⟩ := decode?_pair hfits hfits' hhigh hlow rest
      rw [← List.append_assoc, hreads, Option.isSome_map]

/-- **A body that is decoded is admissible.** -/
theorem exists_admissible_of_decode? {body : List Char} (h : (decode? body).isSome = true) :
    ∃ es, Spells es body ∧ Admissible es := by
  -- The two halves of a character are read at once, so the induction is on the length.
  induction hlength : body.length using Nat.strongRecOn generalizing body with
  | ind n ih =>
      by_cases hne : body = []
      · exact ⟨[], hne ▸ .nil, .nil⟩
      · obtain ⟨text, htext⟩ := Option.isSome_iff_exists.1 h
        obtain ⟨rest, hleads⟩ := exists_leads_of_decode? htext hne
        rw [hleads.isSome_decode?] at h
        obtain ⟨es, hes, hadmissible⟩ := ih rest.length (hlength ▸ hleads.length_lt) h rfl
        cases hleads with
        | whole hfits hwhole => exact ⟨_, .cons hfits hes, .single hwhole hadmissible⟩
        | halves hfits hfits' hhigh hlow =>
            exact ⟨_, .cons hfits (.cons hfits' hes), .pair hhigh hlow hadmissible⟩

/-- **What the decoder answers**: the text whose units an admissible row of elements writes. -/
theorem decode?_eq_some_iff {body text : List Char} :
    decode? body = some text ↔
      ∃ es, Spells es body ∧ Admissible es ∧ unitsOf es = utf16 text := by
  constructor
  · intro h
    obtain ⟨es, hes, hadmissible⟩ := exists_admissible_of_decode? (Option.isSome_of_eq_some h)
    obtain ⟨text', htext', hunits⟩ := exists_decode?_of_admissible hadmissible hes
    rw [h, Option.some.injEq] at htext'
    exact ⟨es, hes, hadmissible, htext' ▸ hunits⟩
  · rintro ⟨es, hes, hadmissible, hunits⟩
    obtain ⟨text', htext', hunits'⟩ := exists_decode?_of_admissible hadmissible hes
    rw [htext', utf16_injective (hunits.symm.trans hunits')]

/-- **String bodies decode to their values.**  A body has at most one value, and if it is decoded to
a text, the units of the text are its value.  Every body in which the escapes are complete, those in
braces name characters and the halves of characters come in pairs is decoded; and however the
characters of a text are written in such a body, it is decoded to this text. -/
theorem decode?_string_value (body : List Char) :
    (∀ value value', StringValue body value → StringValue body value' → value = value') ∧
    (∀ text, decode? body = some text → StringValue body (utf16 text)) ∧
    ∀ es, Spells es body → Admissible es →
      (∃ text, decode? body = some text) ∧
      ∀ text, unitsOf es = utf16 text → decode? body = some text := by
  refine ⟨?_, ?_, ?_⟩
  · rintro value value' ⟨es, hes, rfl⟩ ⟨es', hes', rfl⟩
    rw [hes.unique hes']
  · intro text h
    obtain ⟨es, hes, -, hunits⟩ := decode?_eq_some_iff.1 h
    exact ⟨es, hes, hunits⟩
  · intro es hes hadmissible
    obtain ⟨text, htext, -⟩ := exists_decode?_of_admissible hadmissible hes
    exact ⟨⟨text, htext⟩, fun text hunits => decode?_eq_some_iff.2 ⟨es, hes, hadmissible, hunits⟩⟩

/-- A letter as a byte, a null before a letter, a letter in braces after zeros, a character by its
two halves, and a line continuation before a letter. -/
def mixedElements : List Element :=
  [.byte '4' '1', .null, .plain 'B', .point ['0', '0', '0', '4', '3'],
    .unit 'D' '8' '3' 'D', .unit 'D' 'E' '0' '0', .continuation ['\r', '\n'], .escaped 'q']

theorem mixedElements_decoded :
    Spells mixedElements (mixedElements.flatMap Element.text) ∧ Admissible mixedElements ∧
      decode? (mixedElements.flatMap Element.text) =
        some ['A', '\x00', 'B', 'C', Char.ofNat 0x1F600, 'q'] := by
  have hspells : Spells mixedElements (mixedElements.flatMap Element.text) := by
    have hletter : 'B' ≠ '\\' := by decide
    have hex {c : Char} (h : (Digit.hexValue? c).isSome) : IsHex c := isHex_of_isSome_hexValue? h
    refine .cons ⟨hex rfl, hex rfl⟩ (.cons ?_ (.cons hletter (.cons ⟨by decide, ?_, by decide⟩
      (.cons ⟨hex rfl, hex rfl, hex rfl, hex rfl⟩ (.cons ⟨hex rfl, hex rfl, hex rfl, hex rfl⟩
        (.cons (.inl rfl) (.cons ⟨rfl, by decide, by decide, rfl⟩ .nil)))))))
    · intro c hc
      obtain rfl : 'B' = c := Option.some.inj hc
      rfl
    · intro c hc
      simp only [List.mem_cons, List.not_mem_nil, or_false] at hc
      rcases hc with rfl | rfl | rfl | rfl | rfl <;> exact hex rfl
  have hadmissible : Admissible mixedElements :=
    .single trivial (.single trivial (.single trivial (.single (fun h => absurd h.1 (by decide))
      (.pair (by decide) (by decide) (.single trivial (.single trivial .nil))))))
  obtain ⟨-, -, hdecoded⟩ := decode?_string_value (mixedElements.flatMap Element.text)
  exact ⟨hspells, hadmissible, (hdecoded _ hspells hadmissible).2 _ (by decide)⟩

end JavaScript.StringText

end ExportSurface
