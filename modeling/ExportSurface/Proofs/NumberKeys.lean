/-
Numbers and the property names that they stand for.

A number other than zero is written as a key in one of two ways: whole numbers below `10 ^ 21` as
64-bit words, all others by their shortest decimal.  Read back, a key of either kind lies in the
interval that rounds to its number, so the sign and the digits of a key tell the number.  The words
are the exception.  They end at `2 ^ 63`, long before `10 ^ 21`, and a whole number between the two
is written as the last word on its side of zero: all these numbers share one key.

Main definitions:

* `Shortest.quantity` — what a decimal text says;
* `Binary64.Saturates` — a number is written as a word but is past the last one;
* `Binary64.IsBody` — a text without its sign says which number it is the key of.

Main results:

* `Shortest.quantity_positional` — a decimal that is written out says what it is;
* `Binary64.whole?_eq_some_iff` — which integer a number is;
* `Binary64.exists_body_of_keyText?` — **the key of a number that does not saturate rounds to it**;
* `Literal.key?_number_eq_iff` — two numbers have the same key exactly if they are the same, or both
  saturate on the same side of zero.
-/

import ExportSurface.Ast.Literal
import ExportSurface.Proofs.RoundingIntervals
import Mathlib.Data.List.TakeWhile

set_option autoImplicit false

namespace ExportSurface

/-! ### What a text says -/

namespace Shortest

variable {cs whole places : List Char}

/-- The quantity that digits with at most one point among them stand for. -/
def quantity (cs : List Char) : ℚ :=
  let places := (cs.dropWhile (· != '.')).drop 1
  Nat.ofDigitChars 10 (cs.takeWhile (· != '.') ++ places) 0 / 10 ^ places.length

theorem bne_point_of_not_mem (h : '.' ∉ cs) : ∀ c ∈ cs, (c != '.') = true :=
  fun _ hc => bne_iff_ne.2 fun heq => h (heq ▸ hc)

theorem quantity_point (h : '.' ∉ whole) : quantity (whole ++ '.' :: places) =
    Nat.ofDigitChars 10 (whole ++ places) 0 * 10 ^ (-(places.length : ℤ)) := by
  have hall := bne_point_of_not_mem h
  simp only [quantity]
  rw [List.takeWhile_append_of_pos hall, List.dropWhile_append_of_pos hall]
  simp [div_eq_mul_inv]

theorem quantity_digits (h : '.' ∉ cs) : quantity cs = Nat.ofDigitChars 10 cs 0 := by
  have hall := bne_point_of_not_mem h
  simp only [quantity]
  rw [List.takeWhile_eq_self_iff.2 hall, List.dropWhile_eq_nil_iff.2 hall]
  simp

theorem point_not_mem_toDigits (n : ℕ) : '.' ∉ Nat.toDigits 10 n := by
  intro hmem
  have hdigit := Nat.isDigit_of_mem_toDigits (by norm_num) (by norm_num) hmem
  revert hdigit
  decide

@[simp] theorem quantity_toDigits (n : ℕ) : quantity (Nat.toDigits 10 n) = n := by
  rw [quantity_digits (point_not_mem_toDigits n), Nat.ofDigitChars_ten_toDigits]

/-- **A decimal that is written out says what it is.** -/
theorem quantity_positional (c : ℕ) (k : ℤ) : quantity (positional c k).toList = c * 10 ^ k := by
  have hpoint := point_not_mem_toDigits c
  have hvalue : Nat.ofDigitChars 10 (Nat.toDigits 10 c) 0 = c := Nat.ofDigitChars_ten_toDigits
  simp only [positional]
  generalize Nat.toDigits 10 c = digits at hpoint hvalue ⊢
  by_cases hk : 0 ≤ k
  · obtain ⟨n, rfl⟩ := Int.eq_ofNat_of_zero_le hk
    have hnone : '.' ∉ digits ++ List.replicate n '0' := by simp [hpoint]
    rw [if_pos hk, String.toList_ofList, Int.toNat_natCast, quantity_digits hnone,
      Nat.ofDigitChars_append, hvalue, Nat.ofDigitChars_replicate_zero]
    push_cast
    rw [zpow_natCast, mul_comm]
  · obtain ⟨n, rfl⟩ := Int.exists_eq_neg_ofNat (Int.not_le.1 hk).le
    rw [if_neg hk, neg_neg, Int.toNat_natCast]
    split_ifs with hplaces
    · -- The point falls between two digits.
      have hnone : '.' ∉ digits.take (digits.length - n) :=
        fun hmem => hpoint (List.mem_of_mem_take hmem)
      rw [String.toList_ofList, quantity_point hnone, List.take_append_drop, hvalue,
        List.length_drop, Nat.sub_sub_self hplaces.le]
    · -- Zeros fill the places between the point and the first digit.
      have hlength : (List.replicate (n - digits.length) '0' ++ digits).length = n := by
        rw [List.length_append, List.length_replicate]
        omega
      have hzeros : Nat.ofDigitChars 10 ('0' :: List.replicate (n - digits.length) '0') 0 = 0 := by
        rw [← List.replicate_succ, Nat.ofDigitChars_replicate_zero, Nat.mul_zero]
      have hnone : '.' ∉ ['0'] := by decide
      refine (congrArg quantity String.toList_ofList).trans ((quantity_point hnone).trans ?_)
      rw [hlength, List.singleton_append, ← List.cons_append, Nat.ofDigitChars_append, hzeros,
        hvalue]

/-- A text starts with a digit. -/
def StartsWithDigit (cs : List Char) : Prop := ∃ d rest, cs = d :: rest ∧ d.isDigit = true

theorem startsWithDigit_toDigits (n : ℕ) : StartsWithDigit (Nat.toDigits 10 n) := by
  cases hdigits : Nat.toDigits 10 n with
  | nil => exact absurd hdigits Nat.toDigits_ne_nil
  | cons d rest =>
      refine ⟨d, rest, rfl, ?_⟩
      have hmem : d ∈ Nat.toDigits 10 n := by rw [hdigits]; exact List.mem_cons_self
      exact Nat.isDigit_of_mem_toDigits (by norm_num) (by norm_num) hmem

theorem not_startsWithDigit_inf : ¬ StartsWithDigit "inf".toList := by
  rintro ⟨d, rest, htext, hd⟩
  cases htext
  cases hd

theorem StartsWithDigit.append (h : StartsWithDigit cs) (rest : List Char) :
    StartsWithDigit (cs ++ rest) := by
  obtain ⟨d, others, rfl, hd⟩ := h
  exact ⟨d, others ++ rest, rfl, hd⟩

theorem StartsWithDigit.take (h : StartsWithDigit cs) {n : ℕ} (hn : n ≠ 0) :
    StartsWithDigit (cs.take n) := by
  obtain ⟨d, others, rfl, hd⟩ := h
  obtain ⟨n, rfl⟩ := Nat.exists_eq_succ_of_ne_zero hn
  exact ⟨d, others.take n, rfl, hd⟩

theorem startsWithDigit_positional (c : ℕ) (k : ℤ) : StartsWithDigit (positional c k).toList := by
  have hdigits := startsWithDigit_toDigits c
  simp only [positional]
  split_ifs with hk hplaces
  · rw [String.toList_ofList]
    exact hdigits.append _
  · rw [String.toList_ofList]
    exact (hdigits.take (by omega)).append _
  · exact ⟨'0', _, String.toList_ofList, rfl⟩

/-- The sign before a text. -/
def signText (negative : Bool) : List Char := if negative then ['-'] else []

/-- **A text without a sign of its own and the sign before it** can be told apart. -/
theorem signText_append_inj {s s' : Bool} {cs cs' : List Char} (hcs : cs.head? ≠ some '-')
    (hcs' : cs'.head? ≠ some '-') (h : signText s ++ cs = signText s' ++ cs') :
    s = s' ∧ cs = cs' := by
  cases s <;> cases s'
  · exact ⟨rfl, h⟩
  · subst h
    exact absurd rfl hcs
  · subst h
    exact absurd rfl hcs'
  · exact ⟨rfl, List.append_cancel_left h⟩

theorem toList_toString (n : ℤ) :
    (toString n).toList = signText (decide (n < 0)) ++ Nat.toDigits 10 n.natAbs := by
  rw [Int.toString_eq_repr, Int.repr_eq_if]
  split_ifs with hn
  · have hnot : ¬ n < 0 := by omega
    have habs : n.toNat = n.natAbs := by omega
    simp [signText, hnot, habs, Nat.repr_eq_ofList_toDigits]
  · have hneg : n < 0 := by omega
    have habs : (-n).toNat = n.natAbs := by omega
    simp [signText, hneg, habs, Nat.repr_eq_ofList_toDigits]

end Shortest

namespace Binary64

open Shortest

variable {x y : Binary64} {n : ℤ} {key : String}

/-! ### Whole numbers -/

theorem ratio_eq (x : Binary64) : (x.ratio.1 : ℚ) / x.ratio.2 = magnitude x.row := by
  rw [ratio, scale_eq, magnitude, mantissa_eq, exponent_eq, zpow_neg]
  simp

theorem ratio_den_pos (x : Binary64) : 0 < x.ratio.2 := scale_den_pos one_pos _ _

theorem magnitude_eq_natCast_iff (N : ℕ) :
    magnitude x.row = N ↔ x.ratio.1 = N * x.ratio.2 := by
  have hden : (x.ratio.2 : ℚ) ≠ 0 := Nat.cast_ne_zero.2 (ratio_den_pos x).ne'
  rw [← ratio_eq, div_eq_iff hden]
  exact_mod_cast Iff.rfl

/-- The integer of the given magnitude. -/
def signedInt (negative : Bool) (N : ℕ) : ℤ := if negative then -(N : ℤ) else N

@[simp] theorem natAbs_signedInt (negative : Bool) (N : ℕ) :
    (signedInt negative N).natAbs = N := by
  cases negative <;> simp [signedInt]

theorem signedInt_neg_iff {negative : Bool} {N : ℕ} (hN : N ≠ 0) :
    signedInt negative N < 0 ↔ negative = true := by
  have hpos : 0 < N := Nat.pos_of_ne_zero hN
  cases negative <;> simp [signedInt, hpos]

theorem whole?_eq (x : Binary64) : x.whole? =
    if x.isFinite then
      if x.ratio.1 % x.ratio.2 = 0 then some (signedInt x.isNegative (x.ratio.1 / x.ratio.2))
      else none
    else none :=
  rfl

/-- A finite number is an integer exactly if its magnitude is one. -/
theorem whole?_eq_some_iff : x.whole? = some n ↔
    x.isFinite = true ∧ ∃ N : ℕ, magnitude x.row = N ∧ n = signedInt x.isNegative N := by
  simp only [magnitude_eq_natCast_iff, whole?_eq]
  constructor
  · intro hwhole
    split_ifs at hwhole with hfinite hmod
    refine ⟨hfinite, x.ratio.1 / x.ratio.2, ?_, (Option.some.inj hwhole).symm⟩
    exact (Nat.div_mul_cancel (Nat.dvd_of_mod_eq_zero hmod)).symm
  · rintro ⟨hfinite, N, hratio, rfl⟩
    rw [if_pos hfinite, hratio, if_pos (Nat.mul_mod_left _ _),
      Nat.mul_div_cancel _ (ratio_den_pos x)]

/-! ### Words -/

/-- A whole number that is written as a 64-bit word although its magnitude is past the words. -/
def Saturates (x : Binary64) : Prop :=
  ∃ n, x.whole? = some n ∧ n.natAbs < 10 ^ 21 ∧ 2 ^ 63 ≤ n.natAbs

theorem clampWord_eq (n : ℤ) : clampWord n = max (-2 ^ 63) (min (2 ^ 63 - 1) n) := rfl

theorem clampWord_of_lt (h : n.natAbs < 2 ^ 63) : clampWord n = n := by
  rw [clampWord_eq]
  omega

/-- Past the words all integers on one side of zero are written as one. -/
theorem clampWord_of_le (h : 2 ^ 63 ≤ n.natAbs) :
    clampWord n = if n < 0 then -2 ^ 63 else 2 ^ 63 - 1 := by
  rw [clampWord_eq]
  omega

theorem clampWord_neg_iff : clampWord n < 0 ↔ n < 0 := by
  rw [clampWord_eq]
  omega

/-- The bits of `2 ^ 63` without the sign. -/
def wordRow : ℕ := 1086 * 2 ^ 52

theorem magnitude_wordRow : magnitude wordRow = 2 ^ 63 := by
  norm_num [magnitude, mantissaAt, exponentAt, wordRow]

theorem quarter_wordRow : quarter wordRow = 2 ^ 9 := by
  norm_num [quarter, exponentAt, wordRow]

/-- The words at both ends round to `2 ^ 63`. -/
theorem roundsTo_wordRow {q : ℚ} (hlow : 2 ^ 63 - 1 ≤ q) (hhigh : q ≤ 2 ^ 63) :
    RoundsTo q wordRow := by
  refine roundsTo_of_near (by norm_num [wordRow]) ?_ ?_
  · rw [magnitude_wordRow, quarter_wordRow]
    linarith
  · rwa [magnitude_wordRow]

theorem saturates_of_row_eq (h : x.row = wordRow) : x.Saturates := by
  have hfinite : x.isFinite = true := by
    rw [isFinite, biased_eq, h]
    rfl
  have hwhole : x.whole? = some (signedInt x.isNegative (2 ^ 63)) := by
    refine whole?_eq_some_iff.2 ⟨hfinite, 2 ^ 63, ?_, rfl⟩
    rw [h, magnitude_wordRow]
    norm_num
  exact ⟨_, hwhole, by rw [natAbs_signedInt]; norm_num, by rw [natAbs_signedInt]⟩

/-! ### Keys without their sign -/

/-- A text, without its sign, says which number it is the key of. -/
def IsBody (x : Binary64) (body : List Char) : Prop :=
  body = "inf".toList ∧ x.row = infinityMagnitude ∨
    StartsWithDigit body ∧
      (RoundsTo (quantity body) x.row ∨ x.Saturates ∧ RoundsTo (quantity body) wordRow)

theorem IsBody.head?_ne {body : List Char} (h : x.IsBody body) : body.head? ≠ some '-' := by
  rcases h with ⟨rfl, -⟩ | ⟨⟨d, rest, rfl, hd⟩, -⟩
  · decide
  · intro heq
    cases heq
    cases hd

/-- **A text without its sign is the key of one number**, or of all that saturate. -/
theorem IsBody.unique {body : List Char} (hx : x.IsBody body) (hy : y.IsBody body) :
    x.row = y.row ∨ x.Saturates ∧ y.Saturates := by
  rcases hx with ⟨rfl, hx⟩ | ⟨hdigit, hx⟩
  · rcases hy with ⟨-, hy⟩ | ⟨hdigit, -⟩
    · exact .inl (hx.trans hy.symm)
    · exact absurd hdigit not_startsWithDigit_inf
  · rcases hy with ⟨rfl, -⟩ | ⟨-, hy⟩
    · exact absurd hdigit not_startsWithDigit_inf
    · -- A decimal that is also the last word can only be that of `2 ^ 63`, which saturates too.
      rcases hx with hx | ⟨hx, hxword⟩ <;> rcases hy with hy | ⟨hy, hyword⟩
      · exact .inl (hx.unique hy)
      · exact .inr ⟨saturates_of_row_eq (hx.unique hyword), hy⟩
      · exact .inr ⟨hx, saturates_of_row_eq (hy.unique hxword)⟩
      · exact .inr ⟨hx, hy⟩

/-! ### The key of a number -/

theorem row_of_not_isFinite (hfinite : x.isFinite = false) (hnan : x.isNaN = false) :
    x.row = infinityMagnitude := by
  simp only [isFinite, isNaN, biased_eq, fraction_eq, bne_eq_false_iff_eq] at hfinite hnan
  simp only [hfinite, beq_self_eq_true, Bool.true_and, bne_eq_false_iff_eq] at hnan
  rw [infinityMagnitude, Nat.pow_eq]
  omega

/-- The text of a number that is not written as a word. -/
theorem exists_body_text (hzero : x.row ≠ 0) (hnan : x.isNaN = false) :
    ∃ body, (text x).toList = signText x.isNegative ++ body ∧ x.IsBody body := by
  have hsign : (if x.isNegative then "-" else "").toList = signText x.isNegative := by
    cases x.isNegative <;> rfl
  unfold text
  dsimp only
  cases hfinite : x.isFinite with
  | true =>
      refine ⟨(positional (decimal x).1 (decimal x).2).toList, ?_, .inr ⟨?_, .inl ?_⟩⟩
      · rw [if_pos rfl, String.toList_append, hsign]
      · exact startsWithDigit_positional _ _
      · rw [quantity_positional]
        exact roundsTo_decimal hzero
  | false =>
      refine ⟨"inf".toList, ?_, .inl ⟨rfl, row_of_not_isFinite hfinite hnan⟩⟩
      rw [if_neg Bool.false_ne_true, String.toList_append, hsign]

/-- The text of a word. -/
theorem exists_body_word (hzero : x.row ≠ 0) (hwhole : x.whole? = some n)
    (hn : n.natAbs < 10 ^ 21) :
    ∃ body, (toString (clampWord n)).toList = signText x.isNegative ++ body ∧ x.IsBody body := by
  obtain ⟨-, N, hmagnitude, hsigned⟩ := whole?_eq_some_iff.1 hwhole
  have habs : n.natAbs = N := by rw [hsigned, natAbs_signedInt]
  have hpos : N ≠ 0 := by
    rintro rfl
    rw [Nat.cast_zero, magnitude_eq_zero_iff] at hmagnitude
    exact hzero hmagnitude
  have hsign : decide (clampWord n < 0) = x.isNegative := by
    rw [Bool.eq_iff_iff, decide_eq_true_iff, clampWord_neg_iff, hsigned, signedInt_neg_iff hpos]
  refine ⟨Nat.toDigits 10 (clampWord n).natAbs, ?_, .inr ⟨startsWithDigit_toDigits _, ?_⟩⟩
  · rw [toList_toString, hsign]
  rw [quantity_toDigits]
  by_cases hword : n.natAbs < 2 ^ 63
  · left
    rw [clampWord_of_lt hword, habs, ← hmagnitude]
    exact roundsTo_magnitude hzero
  · right
    have hle : 2 ^ 63 - 1 ≤ (clampWord n).natAbs ∧ (clampWord n).natAbs ≤ 2 ^ 63 := by
      rw [clampWord_of_le (Nat.not_lt.1 hword)]
      split_ifs <;> omega
    refine ⟨⟨n, hwhole, hn, Nat.not_lt.1 hword⟩, roundsTo_wordRow ?_ ?_⟩
    · have hcast : (2 ^ 63 : ℕ) ≤ (clampWord n).natAbs + 1 := by omega
      have hcast : ((2 ^ 63 : ℕ) : ℚ) ≤ ((clampWord n).natAbs + 1 : ℕ) := Nat.cast_le.2 hcast
      push_cast at hcast
      linarith
    · exact_mod_cast hle.2

/-- **The key of a number rounds to the number**, unless it saturates. -/
theorem exists_body_of_keyText? (h : x.keyText? = some key) :
    ∃ body, key.toList = signText x.isNegative ++ body ∧ x.IsBody body := by
  unfold keyText? at h
  split_ifs at h with hnone
  rw [Bool.or_eq_true, not_or, isZero_iff, Bool.not_eq_true] at hnone
  obtain ⟨hzero, hnan⟩ := hnone
  cases hwhole : x.whole? with
  | none =>
      rw [hwhole] at h
      cases h
      exact exists_body_text hzero hnan
  | some n =>
      simp only [hwhole] at h
      split_ifs at h with hn
      · cases h
        exact exists_body_word hzero hwhole hn
      · cases h
        exact exists_body_text hzero hnan

/-- All numbers that saturate on one side of zero have one key. -/
theorem keyText?_of_saturates (h : x.Saturates) :
    x.keyText? = some (toString (if x.isNegative then -2 ^ 63 else 2 ^ 63 - 1 : ℤ)) := by
  obtain ⟨n, hwhole, hn, hword⟩ := h
  obtain ⟨hfinite, N, hmagnitude, hsigned⟩ := whole?_eq_some_iff.1 hwhole
  have hpos : N ≠ 0 := by
    rw [hsigned, natAbs_signedInt] at hword
    omega
  have hzero : ¬ x.isZero = true := by
    rw [isZero_iff, ← magnitude_eq_zero_iff, hmagnitude, Nat.cast_eq_zero]
    exact hpos
  have hnan : ¬ x.isNaN = true := by
    rw [isFinite, bne_iff_ne] at hfinite
    rw [isNaN, Bool.and_eq_true, beq_iff_eq]
    exact fun hnan => hfinite hnan.1
  unfold keyText?
  rw [if_neg (by rw [Bool.or_eq_true]; exact not_or.2 ⟨hzero, hnan⟩), hwhole]
  dsimp only
  rw [Nat.pow_eq, if_pos hn, clampWord_of_le hword, hsigned]
  simp only [signedInt_neg_iff hpos]

end Binary64

/-- **When two numbers have the same key**: if they are the same number, or if both are whole, below
`10 ^ 21` in magnitude and past the 64-bit words on the same side of zero. -/
theorem Literal.key?_number_eq_iff (x y : Binary64) (key : String)
    (hx : (Literal.number x).key? = some key) :
    (Literal.number y).key? = some key ↔
      x = y ∨ x.Saturates ∧ y.Saturates ∧ x.isNegative = y.isNegative := by
  constructor
  · intro hy
    obtain ⟨body, hkey, hbody⟩ := Binary64.exists_body_of_keyText? hx
    obtain ⟨body', hkey', hbody'⟩ := Binary64.exists_body_of_keyText? hy
    obtain ⟨hsign, rfl⟩ :=
      Shortest.signText_append_inj hbody.head?_ne hbody'.head?_ne (hkey.symm.trans hkey')
    -- With the signs gone, what is left of the key says which number it was.
    rcases hbody.unique hbody' with hrow | ⟨hxs, hys⟩
    · exact .inl (Binary64.eq_of_row_eq hsign hrow)
    · exact .inr ⟨hxs, hys, hsign⟩
  · rintro (rfl | ⟨hxs, hys, hsign⟩)
    · exact hx
    · have hkey := Binary64.keyText?_of_saturates hys
      rw [← hsign, ← Binary64.keyText?_of_saturates hxs] at hkey
      exact hkey.trans hx

/-- The numbers `2 ^ 63` and `2 ^ 64` stand for the same property. -/
theorem Literal.pastWords_same_key :
    (Literal.number ⟨0x43E0000000000000⟩).key? = some "9223372036854775807" ∧
      (Literal.number ⟨0x43F0000000000000⟩).key? = some "9223372036854775807" ∧
      (⟨0x43E0000000000000⟩ : Binary64).whole? = some (2 ^ 63) ∧
      (⟨0x43F0000000000000⟩ : Binary64).whole? = some (2 ^ 64) := by
  have hx : (⟨0x43E0000000000000⟩ : Binary64).whole? = some (2 ^ 63) := by decide +kernel
  have hy : (⟨0x43F0000000000000⟩ : Binary64).whole? = some (2 ^ 64) := by decide +kernel
  have hkey : (Literal.number ⟨0x43E0000000000000⟩).key? = some "9223372036854775807" := by
    decide +kernel
  refine ⟨hkey, (Literal.key?_number_eq_iff _ _ _ hkey).2 (.inr ⟨?_, ?_, ?_⟩), hx, hy⟩
  · exact ⟨_, hx, by norm_num, by norm_num⟩
  · exact ⟨_, hy, by norm_num, by norm_num⟩
  · decide

end ExportSurface
