/-
Every text is read back from its written form.

The plain forms hold the text as it is, so the writer takes them only for texts in which nothing
ends the form early; the other forms escape what would.  Over several lines the reader looks up to
five quotes ahead, since two of the text may stand right before the three that close it.  A proof by
induction on the text has to carry the quotes that the reader has not decided about yet.

Main definitions:

* `ClosedByThree` — a reader of texts that three quotes close;
* `Form.Holds` — what has to be known of a text for a form to hold it.

Main results:

* `read_units` — a text on one line, written character by character;
* `ClosedByThree.read_verbatim` — a text over several lines, if it has no three quotes in a row;
* `readBasicLines_escapeLines` — a text with its escapes over several lines;
* `Form.of_holds` — **the chosen form holds the text**;
* `readText_writeText` — **what is written is read back**, whatever follows it but a quote.
-/

import ExportSurface.Toml.Text

set_option autoImplicit false

namespace ExportSurface

theorem Digit.hexValue?_hexUpper (n : Nat) (hn : n < 16) : hexValue? (hexUpper n) = some n := by
  revert n
  decide

theorem CodePoint.char?_toNat (c : Char) : char? c.toNat = some c := by
  have hc : c.toNat.isValidChar := c.valid
  rw [char?, if_pos hc, Char.ofNat_toNat]

namespace Toml

/-! ### Characters that stand for themselves -/

theorem isPlain_of_not_isControl {c : Char} (hc : isControl c = false) :
    c = '\n' ∨ isPlain c = true := by
  by_cases hbreak : c = '\n'
  · exact .inl hbreak
  · have hsize : 0x20 ≤ c.toNat ∧ c.toNat ≠ 0x7F := by simpa [isControl, hbreak] using hc
    exact .inr (by simp [isPlain, hsize])

theorem ne_return_of_not_isControl {c : Char} (hc : isControl c = false) : c ≠ '\r' := by
  rintro rfl
  simp [isControl] at hc

theorem foldr_cons_some (text before rest : List Char) :
    before.foldr TextResult.cons (some (text, rest)) = some (before ++ text, rest) := by
  induction before with
  | nil => rfl
  | cons c before ih => simp [ih, TextResult.cons]

theorem readBasic_plain {c : Char} (hc : isPlain c = true) (hquote : c ≠ '"') (hslash : c ≠ '\\')
    (tail : List Char) : readBasic (c :: tail) = (readBasic tail).cons c := by
  rw [readBasic.eq_def]
  split <;> simp_all

theorem readBasicLines_plain {c : Char} (hc : isControl c = false) (hquote : c ≠ '"')
    (hslash : c ≠ '\\') (tail : List Char) :
    readBasicLines false (c :: tail) = (readBasicLines false tail).cons c := by
  have hreturn := ne_return_of_not_isControl hc
  rw [readBasicLines.eq_def]
  rcases isPlain_of_not_isControl hc with hbreak | hplain
  · simp [hbreak]
  · split <;> simp_all

theorem readLiteral_plain {c : Char} (hc : isPlain c = true) (hquote : c ≠ '\'')
    (tail : List Char) : readLiteral (c :: tail) = (readLiteral tail).cons c := by
  simp [readLiteral, hc, hquote]

theorem readLiteralLines_plain {c : Char} (hc : isControl c = false) (hquote : c ≠ '\'')
    (tail : List Char) : readLiteralLines (c :: tail) = (readLiteralLines tail).cons c := by
  have hreturn := ne_return_of_not_isControl hc
  rw [readLiteralLines.eq_def]
  rcases isPlain_of_not_isControl hc with hbreak | hplain
  · simp [hbreak]
  · split <;> simp_all

/-! ### Texts on one line -/

/-- A text in which each character is written as a unit, and each unit is read as its character. -/
theorem read_units {read : List Char → TextResult} (unit : Char → List Char) (cs : List Char)
    {closing rest : List Char} (hclose : read closing = some ([], rest))
    (hunit : ∀ c ∈ cs, ∀ tail, read (unit c ++ tail) = (read tail).cons c) :
    read (cs.flatMap unit ++ closing) = some (cs, rest) := by
  induction cs with
  | nil => exact hclose
  | cons c cs ih =>
      rw [List.flatMap_cons, List.append_assoc, hunit c List.mem_cons_self,
        ih fun d hd => hunit d (List.mem_cons_of_mem c hd)]
      rfl

theorem readBasic_verbatim (cs rest : List Char) (hplain : ∀ c ∈ cs, isPlain c = true)
    (hquote : '"' ∉ cs) (hslash : '\\' ∉ cs) : readBasic (cs ++ '"' :: rest) = some (cs, rest) := by
  have hclose : readBasic ('"' :: rest) = some ([], rest) := by simp [readBasic]
  have hread := read_units (fun c => [c]) cs hclose fun c hc =>
    readBasic_plain (hplain c hc) (ne_of_mem_of_not_mem hc hquote) (ne_of_mem_of_not_mem hc hslash)
  rwa [List.flatMap_singleton'] at hread

theorem readLiteral_verbatim (cs rest : List Char) (hplain : ∀ c ∈ cs, isPlain c = true)
    (hquote : '\'' ∉ cs) : readLiteral (cs ++ '\'' :: rest) = some (cs, rest) := by
  have hclose : readLiteral ('\'' :: rest) = some ([], rest) := by simp [readLiteral]
  have hread := read_units (fun c => [c]) cs hclose fun c hc =>
    readLiteral_plain (hplain c hc) (ne_of_mem_of_not_mem hc hquote)
  rwa [List.flatMap_singleton'] at hread

/-! ### Texts that three quotes close -/

/-- A reader of texts that three quotes close: up to two more of them may stand right before, and
in front of any other character up to two are part of the text. -/
structure ClosedByThree (quote : Char) (read : List Char → TextResult) : Prop where
  closes : ∀ {n : Nat} {rest : List Char}, n ≤ 2 → rest.head? ≠ some quote →
    read (List.replicate n quote ++ quote :: quote :: quote :: rest) =
      some (List.replicate n quote, rest)
  passes : ∀ {n : Nat} {d : Char} {tail : List Char}, n ≤ 2 → d ≠ quote →
    read (List.replicate n quote ++ d :: tail) =
      (List.replicate n quote).foldr TextResult.cons (read (d :: tail))

theorem readBasicLines_closedByThree : ClosedByThree '"' (readBasicLines false) where
  closes {n rest} hn hrest := by
    obtain rfl | rfl | rfl : n = 0 ∨ n = 1 ∨ n = 2 := by omega
    all_goals
      cases rest with
      | nil => simp [List.replicate, readBasicLines]
      | cons c rest =>
          have hc : c ≠ '"' := by simpa using hrest
          simp [List.replicate, readBasicLines, hc]
  passes {n d tail} hn hd := by
    obtain rfl | rfl | rfl : n = 0 ∨ n = 1 ∨ n = 2 := by omega
    · rfl
    · simp [List.replicate, readBasicLines, hd, isPlain]
    · simp [List.replicate, readBasicLines, hd, isPlain]

theorem readLiteralLines_closedByThree : ClosedByThree '\'' readLiteralLines where
  closes {n rest} hn hrest := by
    obtain rfl | rfl | rfl : n = 0 ∨ n = 1 ∨ n = 2 := by omega
    all_goals
      cases rest with
      | nil => simp [List.replicate, readLiteralLines]
      | cons c rest =>
          have hc : c ≠ '\'' := by simpa using hrest
          simp [List.replicate, readLiteralLines, hc]
  passes {n d tail} hn hd := by
    obtain rfl | rfl | rfl : n = 0 ∨ n = 1 ∨ n = 2 := by omega
    · rfl
    · simp [List.replicate, readLiteralLines, hd, isPlain]
    · simp [List.replicate, readLiteralLines, hd, isPlain]

theorem hasTriple_of_cons {q c : Char} {cs : List Char} (h : hasTriple q (c :: cs) = false) :
    hasTriple q cs = false := by
  match cs with
  | [] => rfl
  | [_] => rfl
  | a :: b :: cs =>
      rw [hasTriple, Bool.or_eq_false_iff] at h
      exact h.2

theorem hasTriple_of_append {q : Char} {before cs : List Char}
    (h : hasTriple q (before ++ cs) = false) : hasTriple q cs = false := by
  induction before with
  | nil => exact h
  | cons c before ih => exact ih (hasTriple_of_cons h)

theorem replicate_append_cons (n : Nat) (q : Char) (tail : List Char) :
    List.replicate n q ++ q :: tail = List.replicate (n + 1) q ++ tail := by
  simp [List.replicate_succ']

namespace ClosedByThree

variable {quote : Char} {read : List Char → TextResult}

/-- Pending quotes, then a character that is read in one step. -/
theorem read_pending (h : ClosedByThree quote read) {n : Nat} (hn : n ≤ 2) {c d : Char}
    {written tail text rest : List Char} (hd : d ≠ quote)
    (hstep : read (d :: written) = (read tail).cons c) (htail : read tail = some (text, rest)) :
    read (List.replicate n quote ++ d :: written) =
      some (List.replicate n quote ++ c :: text, rest) := by
  calc read (List.replicate n quote ++ d :: written)
      = (List.replicate n quote).foldr TextResult.cons (read (d :: written)) := h.passes hn hd
    _ = (List.replicate n quote).foldr TextResult.cons (some (c :: text, rest)) := by
        rw [hstep, htail]
        rfl
    _ = some (List.replicate n quote ++ c :: text, rest) := foldr_cons_some _ _ _

/-- A text as it is, after `n` quotes of which the reader does not know yet whether they close
it. -/
theorem read_verbatim (h : ClosedByThree quote read) {n : Nat} (hn : n ≤ 2) {cs rest : List Char}
    (hplain : ∀ c ∈ cs, c ≠ quote → ∀ tail, read (c :: tail) = (read tail).cons c)
    (htriple : hasTriple quote (List.replicate n quote ++ cs) = false)
    (hrest : rest.head? ≠ some quote) :
    read (List.replicate n quote ++ (cs ++ quote :: quote :: quote :: rest)) =
      some (List.replicate n quote ++ cs, rest) := by
  induction cs generalizing n with
  | nil => simpa using h.closes hn hrest
  | cons c cs ih =>
      have hplain' := fun d hd => hplain d (List.mem_cons_of_mem c hd)
      by_cases hc : c = quote
      · subst hc
        -- The quote joins the pending ones, of which there are not two already.
        have hn' : n + 1 ≤ 2 := by
          have hne : n ≠ 2 := by
            rintro rfl
            simp [List.replicate, hasTriple] at htriple
          omega
        rw [List.cons_append, replicate_append_cons, replicate_append_cons]
        exact ih hn' hplain' (by rwa [← replicate_append_cons])
      · have htail := ih (Nat.zero_le 2) hplain' (hasTriple_of_cons (hasTriple_of_append htriple))
        exact h.read_pending hn hc (hplain c List.mem_cons_self hc _) htail

end ClosedByThree

/-! ### Escapes -/

theorem toNat_lt_of_isControl {c : Char} (hc : isControl c = true) : c.toNat < 0x80 := by
  simp only [isControl, Bool.or_eq_true, Bool.and_eq_true, decide_eq_true_eq, beq_iff_eq] at hc
  omega

theorem readBasicUnit_toNat {c : Char} (hc : c.toNat < 0x80) (tail : List Char) :
    readBasicUnit 3 0 ('0' :: '0' :: Digit.hexUpper (c.toNat / 16) ::
      Digit.hexUpper (c.toNat % 16) :: tail) = (readBasic tail).cons c := by
  have hzero : Digit.hexValue? '0' = some 0 := by decide
  have hhigh := Digit.hexValue?_hexUpper (c.toNat / 16) (by omega)
  have hlow := Digit.hexValue?_hexUpper (c.toNat % 16) (by omega)
  have hvalue : 16 * (c.toNat / 16) + c.toNat % 16 = c.toNat := by omega
  simp [readBasicUnit, hzero, hhigh, hlow, hvalue, CodePoint.char?_toNat]

theorem readLinesUnit_toNat {c : Char} (hc : c.toNat < 0x80) (tail : List Char) :
    readLinesUnit 3 0 ('0' :: '0' :: Digit.hexUpper (c.toNat / 16) ::
      Digit.hexUpper (c.toNat % 16) :: tail) = (readBasicLines false tail).cons c := by
  have hzero : Digit.hexValue? '0' = some 0 := by decide
  have hhigh := Digit.hexValue?_hexUpper (c.toNat / 16) (by omega)
  have hlow := Digit.hexValue?_hexUpper (c.toNat % 16) (by omega)
  have hvalue : 16 * (c.toNat / 16) + c.toNat % 16 = c.toNat := by omega
  simp [readLinesUnit, hzero, hhigh, hlow, hvalue, CodePoint.char?_toNat]

theorem readBasic_escape {c : Char} (hquote : c ≠ '"') (hbreak : c ≠ '\n') (tail : List Char) :
    readBasic (escape c ++ tail) = (readBasic tail).cons c := by
  unfold escape
  split
  case h_6 hb ht hf hr hs =>
    split
    case isTrue hc => exact readBasicUnit_toNat (toNat_lt_of_isControl hc) tail
    case isFalse hc =>
      rw [Bool.not_eq_true] at hc
      have hplain := (isPlain_of_not_isControl hc).resolve_left hbreak
      exact readBasic_plain hplain hquote hs tail
  all_goals simp [readBasic, escapeValue?]

theorem readBasicLines_escape {c : Char} (hquote : c ≠ '"') (tail : List Char) :
    readBasicLines false (escape c ++ tail) = (readBasicLines false tail).cons c := by
  unfold escape
  split
  case h_6 hb ht hf hr hs =>
    split
    case isTrue hc => exact readLinesUnit_toNat (toNat_lt_of_isControl hc) tail
    case isFalse hc =>
      rw [Bool.not_eq_true] at hc
      exact readBasicLines_plain hc hquote hs tail
  all_goals simp [readBasicLines, escapeValue?]

theorem exists_escape_eq_cons {c : Char} (hquote : c ≠ '"') :
    ∃ d unit, escape c = d :: unit ∧ d ≠ '"' := by
  unfold escape
  split
  case h_6 =>
    split
    · exact ⟨_, _, rfl, by decide⟩
    · exact ⟨c, [], rfl, hquote⟩
  all_goals exact ⟨_, _, rfl, by decide⟩

theorem readBasic_escapeLine (cs rest : List Char) :
    readBasic (escapeLine cs ++ '"' :: rest) = some (cs, rest) := by
  refine read_units _ cs (by simp [readBasic]) fun c _ tail => ?_
  by_cases hbreak : c = '\n'
  · simp [hbreak, readBasic, escapeValue?]
  by_cases hquote : c = '"'
  · simp [hquote, readBasic, escapeValue?]
  · simpa [hbreak, hquote] using readBasic_escape hquote hbreak tail

/-- A text with its escapes, after `n` quotes that were written as they are. -/
theorem readBasicLines_escapeLines {n : Nat} (hn : n ≤ 2) (cs : List Char) {rest : List Char}
    (hrest : rest.head? ≠ some '"') :
    readBasicLines false
        (List.replicate n '"' ++ (escapeLines n cs ++ '"' :: '"' :: '"' :: rest)) =
      some (List.replicate n '"' ++ cs, rest) := by
  have hlines := readBasicLines_closedByThree
  induction cs generalizing n with
  | nil => simpa [escapeLines] using hlines.closes hn hrest
  | cons c cs ih =>
      have htail := ih (Nat.zero_le 2)
      rw [escapeLines]
      split
      case isTrue hquote =>
        subst hquote
        split
        case isTrue htwo =>
          have hstep : ∀ tail, readBasicLines false ('\\' :: '"' :: tail) =
              (readBasicLines false tail).cons '"' := by
            simp [readBasicLines, escapeValue?]
          exact hlines.read_pending hn (by decide) (hstep _) htail
        case isFalse htwo =>
          rw [List.cons_append, replicate_append_cons, replicate_append_cons]
          exact ih (by omega)
      case isFalse hquote =>
        split
        case isTrue hbreak =>
          exact hlines.read_pending hn hquote
            (readBasicLines_plain (by simp [hbreak, isControl]) hquote (by simp [hbreak]) _) htail
        case isFalse hbreak =>
          obtain ⟨d, unit, hunit, hd⟩ := exists_escape_eq_cons hquote
          have hstep := readBasicLines_escape hquote
            (escapeLines 0 cs ++ '"' :: '"' :: '"' :: rest)
          rw [hunit] at hstep ⊢
          rw [List.append_assoc]
          exact hlines.read_pending hn hd hstep htail

/-! ### The written form -/

/-- The line break after the opening quotes is the one that does not count. -/
theorem skipLineBreak_openingBreak (cs written : List Char)
    (h : '\n' ∉ cs → ∀ c ∈ written.head?, c ≠ '\n' ∧ c ≠ '\r') :
    skipLineBreak (openingBreak cs ++ written) = written := by
  rw [openingBreak]
  split
  case isTrue hbreak => rfl
  case isFalse hbreak =>
    have hhead := h (by simpa using hbreak)
    rw [List.nil_append]
    match written with
    | [] => rfl
    | c :: written =>
        obtain ⟨hc, hreturn⟩ := hhead c rfl
        rw [skipLineBreak.eq_def]
        split <;> simp_all

theorem skipLineBreak_openingBreak_append {cs : List Char}
    (hcontrol : ∀ c ∈ cs, isControl c = false) {q : Char} {tail : List Char}
    (hq : q ≠ '\n' ∧ q ≠ '\r') :
    skipLineBreak (openingBreak cs ++ (cs ++ q :: tail)) = cs ++ q :: tail := by
  apply skipLineBreak_openingBreak
  intro hbreak c hc
  match cs with
  | [] =>
      obtain rfl : q = c := by simpa using hc
      exact hq
  | d :: cs =>
      obtain rfl : d = c := by simpa using hc
      exact ⟨ne_of_mem_of_not_mem List.mem_cons_self hbreak,
        ne_return_of_not_isControl (hcontrol d List.mem_cons_self)⟩

/-- What has to be known of a text for a form to hold it. -/
def Form.Holds (cs : List Char) : Form → Prop
  | .basic => (∀ c ∈ cs, isPlain c = true) ∧ '"' ∉ cs ∧ '\\' ∉ cs
  | .literal => (∀ c ∈ cs, isPlain c = true) ∧ '\'' ∉ cs
  | .basicLines => (∀ c ∈ cs, isControl c = false) ∧ '\\' ∉ cs ∧ hasTriple '"' cs = false
  | .literalLines => (∀ c ∈ cs, isControl c = false) ∧ hasTriple '\'' cs = false
  | .escaped => True
  | .escapedLines => '\n' ∈ cs

theorem Form.of_holds (cs : List Char) : (Form.of cs).Holds cs := by
  have hplain : cs.any isControl = false → '\n' ∉ cs → ∀ c ∈ cs, isPlain c = true := by
    intro hcontrol hbreak c hc
    refine (isPlain_of_not_isControl ?_).resolve_left (ne_of_mem_of_not_mem hc hbreak)
    exact Bool.eq_false_iff.2 (List.any_eq_false.1 hcontrol c hc)
  have hcontrol : cs.any isControl = false → ∀ c ∈ cs, isControl c = false := by
    simp
  unfold Form.of
  dsimp only
  split
  case isTrue h =>
    simp only [Bool.and_eq_true, Bool.not_eq_true', List.contains_eq_mem,
      decide_eq_false_iff_not] at h
    exact ⟨hplain h.1.1.1 h.2, h.1.2, h.1.1.2⟩
  split
  case isTrue h =>
    simp only [Bool.and_eq_true, Bool.not_eq_true', List.contains_eq_mem,
      decide_eq_false_iff_not] at h
    exact ⟨hplain h.1.1 h.2, h.1.2⟩
  split
  case isTrue h =>
    simp only [Bool.and_eq_true, Bool.not_eq_true', List.contains_eq_mem,
      decide_eq_false_iff_not] at h
    exact ⟨hcontrol h.1.1, h.1.2, h.2⟩
  split
  case isTrue h =>
    simp only [Bool.and_eq_true, Bool.not_eq_true'] at h
    exact ⟨hcontrol h.1, h.2⟩
  split
  case isTrue h => simpa [Form.Holds] using h
  case isFalse h => trivial

theorem head?_escapeLine (cs : List Char) : (escapeLine cs).head? ≠ some '"' := by
  match cs with
  | [] => simp [escapeLine]
  | c :: cs =>
      rw [escapeLine, List.flatMap_cons]
      split
      · simp
      split
      · simp
      · rename_i hquote
        obtain ⟨d, unit, hunit, hd⟩ := exists_escape_eq_cons hquote
        simpa [hunit] using hd

theorem readText_basic {written rest : List Char} (hwritten : written.head? ≠ some '"')
    (hrest : rest.head? ≠ some '"') :
    readText ('"' :: (written ++ '"' :: rest)) = readBasic (written ++ '"' :: rest) := by
  have hne : ∀ tail, written ++ '"' :: rest = '"' :: '"' :: tail → False := by
    intro tail h
    cases written <;> simp_all
  rw [readText]
  exact hne

theorem readText_literal {written rest : List Char} (hwritten : written.head? ≠ some '\'')
    (hrest : rest.head? ≠ some '\'') :
    readText ('\'' :: (written ++ '\'' :: rest)) = readLiteral (written ++ '\'' :: rest) := by
  have hne : ∀ tail, written ++ '\'' :: rest = '\'' :: '\'' :: tail → False := by
    intro tail h
    cases written <;> simp_all
  rw [readText]
  exact hne

/-- What can follow a text: anything but one more quote. -/
def NoQuote (rest : List Char) : Prop := rest.head? ≠ some '"' ∧ rest.head? ≠ some '\''

theorem NoQuote.cons {c : Char} (hc : c ≠ '"' ∧ c ≠ '\'') (tail : List Char) :
    NoQuote (c :: tail) := by
  simpa [NoQuote] using hc

/-- **A text is read back from its written form**, and what follows it is left. -/
theorem readText_writeText (cs : List Char) {rest : List Char} (hrest : NoQuote rest) :
    readText (writeText cs ++ rest) = some (cs, rest) := by
  have hhead : ∀ {q : Char}, q ∉ cs → cs.head? ≠ some q := fun hq h => hq (List.mem_of_head? h)
  have hholds := Form.of_holds cs
  unfold writeText
  cases hform : Form.of cs with
  | basic =>
      rw [hform] at hholds
      obtain ⟨hplain, hquote, hslash⟩ := hholds
      simp only [List.append_assoc, List.cons_append, List.nil_append]
      rw [readText_basic (hhead hquote) hrest.1]
      exact readBasic_verbatim cs rest hplain hquote hslash
  | literal =>
      rw [hform] at hholds
      obtain ⟨hplain, hquote⟩ := hholds
      simp only [List.append_assoc, List.cons_append, List.nil_append]
      rw [readText_literal (hhead hquote) hrest.2]
      exact readLiteral_verbatim cs rest hplain hquote
  | basicLines =>
      rw [hform] at hholds
      obtain ⟨hcontrol, hslash, htriple⟩ := hholds
      simp only [List.append_assoc, List.cons_append, List.nil_append]
      rw [readText, skipLineBreak_openingBreak_append hcontrol (by decide)]
      refine readBasicLines_closedByThree.read_verbatim (Nat.zero_le 2) ?_ htriple hrest.1
      intro c hc hquote
      exact readBasicLines_plain (hcontrol c hc) hquote (ne_of_mem_of_not_mem hc hslash)
  | literalLines =>
      rw [hform] at hholds
      obtain ⟨hcontrol, htriple⟩ := hholds
      simp only [List.append_assoc, List.cons_append, List.nil_append]
      rw [readText, skipLineBreak_openingBreak_append hcontrol (by decide)]
      refine readLiteralLines_closedByThree.read_verbatim (Nat.zero_le 2) ?_ htriple hrest.2
      exact fun c hc => readLiteralLines_plain (hcontrol c hc)
  | escaped =>
      simp only [List.append_assoc, List.cons_append, List.nil_append]
      rw [readText_basic (head?_escapeLine cs) hrest.1]
      exact readBasic_escapeLine cs rest
  | escapedLines =>
      rw [hform] at hholds
      simp only [List.append_assoc, List.cons_append, List.nil_append]
      rw [readText, skipLineBreak_openingBreak _ _ (fun hbreak => absurd hholds hbreak)]
      exact readBasicLines_escapeLines (Nat.zero_le 2) cs hrest.1

/-- A written text starts with a quote. -/
theorem exists_writeText_eq_cons (cs : List Char) :
    ∃ q tail, writeText cs = q :: tail ∧ (q = '"' ∨ q = '\'') := by
  unfold writeText
  split <;> simp

end Toml

end ExportSurface
