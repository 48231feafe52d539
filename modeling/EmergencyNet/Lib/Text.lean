import Mathlib.Algebra.Ring.Int.Defs
import Mathlib.Data.List.Basic
import Mathlib.Data.List.TakeWhile
import Mathlib.Data.Int.Notation
import Mathlib.Tactic.Common

/-!
# Texts and decimal numbers

Texts as lists of characters, with the searching and cutting of Java's `String`, the decimal
numbers that C prints and Java reads, and the tokens and numbers of C.

## Main definitions

* `Text.ofInt` — a number as `printf` prints it.
* `Text.parseInt` — `Integer.parseInt`.
* `Text.indexOf`, `Text.lastIndexOf`, `Text.substring`, `Text.substringFrom` — the methods of
  `String`.
* `Text.strtok`, `Text.atoi` — the functions of C.

## Main results

* `Text.parseInt_ofInt` — **a 32-bit number is read back.**
* `Text.substring_indexOf`, `Text.substringFrom_indexOf` — cutting a text at a separator.
* `Text.lastIndexOf_append` — finding the last separator.
* `Text.strtok_append` — the token before a separator; `Text.atoi_ofNat` — its number.
-/

namespace EmergencyNet

/-- A text. -/
abbrev Text := List Char

namespace Text

instance lawfulBEq : LawfulBEq Text := inferInstance

/-! ### Decimal numbers -/

/-- A number of no sign. -/
def ofNat (n : ℕ) : Text := Nat.toDigits 10 n

/-- A number as `%d` prints it. -/
def ofInt (z : ℤ) : Text := if z < 0 then '-' :: ofNat z.natAbs else ofNat z.natAbs

/-- The digits of a number, if there are any and nothing else. -/
def parseDigits (s : Text) : Option ℕ :=
  if s ≠ [] ∧ s.all Char.isDigit then some (Nat.ofDigitChars 10 s 0) else none

/-- A number, if it is an `int` of 32 bits. -/
def toInt32 (z : ℤ) : Option ℤ := if -2 ^ 31 ≤ z ∧ z < 2 ^ 31 then some z else none

/-- `Integer.parseInt`: digits after at most one sign; `none` where it throws. -/
def parseInt : Text → Option ℤ
  | '-' :: s => (parseDigits s).bind fun n => toInt32 (-n)
  | '+' :: s => (parseDigits s).bind fun n => toInt32 n
  | s => (parseDigits s).bind fun n => toInt32 n

theorem isDigit_of_mem_ofNat {n : ℕ} {c : Char} (h : c ∈ ofNat n) : c.isDigit = true :=
  Nat.isDigit_of_mem_toDigits (by decide) (by decide) h

theorem ofNat_ne_nil {n : ℕ} : ofNat n ≠ [] := Nat.toDigits_ne_nil

/-- A number has digits and at most a sign. -/
theorem not_mem_ofInt {z : ℤ} {c : Char} (hdigit : c.isDigit = false) (hsign : c ≠ '-') :
    c ∉ ofInt z := by
  have hno : c ∉ ofNat z.natAbs := fun hmem => by
    rw [isDigit_of_mem_ofNat hmem] at hdigit
    cases hdigit
  unfold ofInt
  split
  · exact List.not_mem_cons_of_ne_of_not_mem hsign hno
  · exact hno

theorem not_mem_ofNat {n : ℕ} {c : Char} (hdigit : c.isDigit = false) : c ∉ ofNat n := fun hmem => by
  rw [isDigit_of_mem_ofNat hmem] at hdigit
  cases hdigit

@[simp] theorem parseDigits_ofNat (n : ℕ) : parseDigits (ofNat n) = some n := by
  have hall : (ofNat n).all Char.isDigit = true :=
    List.all_eq_true.mpr fun _ hmem => isDigit_of_mem_ofNat hmem
  rw [parseDigits, if_pos ⟨ofNat_ne_nil, hall⟩, ofNat, Nat.ofDigitChars_ten_toDigits]

/-- A text that starts with a digit starts with no sign. -/
theorem parseInt_ofNat (n : ℕ) : parseInt (ofNat n) = toInt32 n := by
  have hno : ∀ c rest, ofNat n = c :: rest → c.isDigit = true := fun c rest heq =>
    isDigit_of_mem_ofNat (heq ▸ List.mem_cons_self)
  unfold parseInt
  split
  · next heq => exact absurd (hno _ _ heq) (by decide)
  · next heq => exact absurd (hno _ _ heq) (by decide)
  · rw [parseDigits_ofNat, Option.bind_some]

/-- **A 32-bit number is read back.** -/
theorem parseInt_ofInt {z : ℤ} (hlow : -2 ^ 31 ≤ z) (hhigh : z < 2 ^ 31) :
    parseInt (ofInt z) = some z := by
  unfold ofInt
  split
  · next hneg =>
    have habs : -(z.natAbs : ℤ) = z := by omega
    rw [parseInt, parseDigits_ofNat, Option.bind_some, habs, toInt32, if_pos ⟨hlow, hhigh⟩]
  · next hpos =>
    have habs : (z.natAbs : ℤ) = z := by omega
    rw [parseInt_ofNat, habs, toInt32, if_pos ⟨hlow, hhigh⟩]

/-! ### Searching and cutting -/

/-- `s.indexOf(c)`. -/
def indexOf (s : Text) (c : Char) : ℤ := if c ∈ s then s.idxOf c else -1

/-- `s.lastIndexOf(c)`. -/
def lastIndexOf (s : Text) (c : Char) : ℤ :=
  if c ∈ s then s.length - 1 - s.reverse.idxOf c else -1

/-- `s.substring(b, e)`; `none` where it throws. -/
def substring (s : Text) (b e : ℤ) : Option Text :=
  if 0 ≤ b ∧ b ≤ e ∧ e ≤ s.length then some ((s.take e.toNat).drop b.toNat) else none

/-- `s.substring(b)`; `none` where it throws. -/
def substringFrom (s : Text) (b : ℤ) : Option Text := s.substring b s.length

variable {p q : Text} {c : Char}

theorem indexOf_append (h : c ∉ p) : indexOf (p ++ c :: q) c = p.length := by
  rw [indexOf, if_pos (by simp), List.idxOf_append_of_notMem h, List.idxOf_cons_self,
    Nat.add_zero]

theorem lastIndexOf_append (h : c ∉ q) : lastIndexOf (p ++ c :: q) c = p.length := by
  have hrev : (p ++ c :: q).reverse = q.reverse ++ c :: p.reverse := by simp
  rw [lastIndexOf, if_pos (by simp), hrev, List.idxOf_append_of_notMem (by simpa using h),
    List.idxOf_cons_self]
  simp only [List.length_append, List.length_cons, List.length_reverse]
  omega

theorem substring_append : substring (p ++ q) 0 p.length = some p := by
  rw [substring, if_pos (by simp only [List.length_append]; omega)]
  simp

theorem substringFrom_append : substringFrom (p ++ q) p.length = some q := by
  rw [substringFrom, substring, if_pos (by simp only [List.length_append]; omega)]
  rw [Int.toNat_natCast, Int.toNat_natCast, List.take_length, List.drop_left]

/-- What stands before the first separator. -/
theorem substring_indexOf (h : c ∉ p) :
    substring (p ++ c :: q) 0 (indexOf (p ++ c :: q) c) = some p := by
  rw [indexOf_append h, substring_append]

/-- What stands behind the first separator. -/
theorem substringFrom_indexOf (h : c ∉ p) :
    substringFrom (p ++ c :: q) (indexOf (p ++ c :: q) c + 1) = some q := by
  have hsplit : p ++ c :: q = (p ++ [c]) ++ q := by simp
  have hlen : (p.length : ℤ) + 1 = (p ++ [c]).length := by simp
  rw [indexOf_append h, hlen, hsplit, substringFrom_append]

/-- A text without the separator is what stands behind it. -/
theorem substringFrom_indexOf_of_notMem (h : c ∉ q) : substringFrom q (indexOf q c + 1) = some q := by
  rw [indexOf, if_neg h]
  exact substringFrom_append (p := [])

/-! ### Tokens -/

/-- `strtok` with the single delimiter `d`: the next token, and what the following call goes on
with; `none` for `NULL`. -/
def strtok (d : Char) (s : Text) : Option (Text × Text) :=
  match s.dropWhile (· == d) with
  | [] => none
  | c :: rest =>
    some ((c :: rest).takeWhile (· != d), ((c :: rest).dropWhile (· != d)).drop 1)

/-- `isspace`. -/
def isSpace (c : Char) : Bool := [' ', '\t', '\n', '\x0b', '\x0c', '\r'].contains c

/-- The digits a text starts with, as a number. -/
def leadingNat (s : Text) : ℕ := Nat.ofDigitChars 10 (s.takeWhile Char.isDigit) 0

/-- `atoi`, before the number is cut to an `int`. -/
def atoi (s : Text) : ℤ :=
  match s.dropWhile isSpace with
  | '-' :: s => -leadingNat s
  | '+' :: s => leadingNat s
  | s => leadingNat s

@[simp] theorem strtok_nil (d : Char) : strtok d [] = none := rfl

/-- A text that does not start with the separator is split at the first one. -/
theorem strtok_cons {d a : Char} (h : a ≠ d) (s : Text) :
    strtok d (a :: s) =
      some (a :: s.takeWhile (· != d), (s.dropWhile (· != d)).drop 1) := by
  have hstart : (a :: s).dropWhile (· == d) = a :: s := List.dropWhile_cons_of_neg (by simpa using h)
  have hgo : (a != d) = true := by simpa using h
  rw [strtok, hstart]
  simp only [List.takeWhile_cons, List.dropWhile_cons, hgo, if_true]

theorem ne_of_notMem {d : Char} (h : d ∉ p) : ∀ c ∈ p, (c != d) = true := by
  intro c hc
  rw [bne_iff_ne]
  rintro rfl
  exact h hc

/-- **The token before a separator.** -/
theorem strtok_append {d : Char} (hne : p ≠ []) (h : d ∉ p) :
    strtok d (p ++ d :: q) = some (p, q) := by
  cases p with
  | nil => exact absurd rfl hne
  | cons a p =>
    rw [List.mem_cons, not_or] at h
    have hstop : (d != d) = false := bne_self_eq_false d
    rw [List.cons_append, strtok_cons (Ne.symm h.1), List.takeWhile_append_of_pos (ne_of_notMem h.2),
      List.dropWhile_append_of_pos (ne_of_notMem h.2)]
    simp only [List.takeWhile_cons, List.dropWhile_cons, hstop, Bool.false_eq_true, if_false,
      List.append_nil, List.drop_succ_cons, List.drop_zero]

/-- The token at the end. -/
theorem strtok_of_notMem {d : Char} (hne : p ≠ []) (h : d ∉ p) : strtok d p = some (p, []) := by
  cases p with
  | nil => exact absurd rfl hne
  | cons a p =>
    rw [List.mem_cons, not_or] at h
    rw [strtok_cons (Ne.symm h.1), List.takeWhile_eq_self_iff.mpr (ne_of_notMem h.2),
      List.dropWhile_eq_nil_iff.mpr (ne_of_notMem h.2), List.drop_nil]

/-- The next call goes on with less. -/
theorem length_strtok {d : Char} {s t r : Text} (h : strtok d s = some (t, r)) :
    r.length < s.length := by
  unfold strtok at h
  split at h
  · cases h
  · next c rest heq =>
    cases h
    have hle : (c :: rest).length ≤ s.length := heq ▸ List.length_dropWhile_le _ _
    have hdrop : ((c :: rest).dropWhile (· != d)).length ≤ (c :: rest).length :=
      List.length_dropWhile_le _ _
    rw [List.length_drop]
    rw [List.length_cons] at hle hdrop
    omega

/-- A number of no sign is read back. -/
theorem atoi_ofNat (n : ℕ) : atoi (ofNat n) = n := by
  have hall : ∀ c ∈ ofNat n, c.isDigit = true := fun _ => isDigit_of_mem_ofNat
  have hlead : leadingNat (ofNat n) = n := by
    rw [leadingNat, List.takeWhile_eq_self_iff.mpr hall, ofNat, Nat.ofDigitChars_ten_toDigits]
  have hstart : (ofNat n).dropWhile isSpace = ofNat n := by
    cases heq : ofNat n with
    | nil => rfl
    | cons c rest =>
      have hdigit := hall c (heq ▸ List.mem_cons_self)
      have hspace : isSpace c = false := by
        cases hs : isSpace c with
        | false => rfl
        | true =>
          -- none of the six is a digit
          have hmem : c ∈ [' ', '\t', '\n', '\x0b', '\x0c', '\r'] := by
            simpa only [isSpace, List.contains_iff_mem] using hs
          have hnone : [' ', '\t', '\n', '\x0b', '\x0c', '\r'].all fun c => !c.isDigit := rfl
          have hc := List.all_eq_true.mp hnone c hmem
          rw [hdigit] at hc
          exact absurd hc Bool.false_ne_true
      rw [List.dropWhile_cons, hspace, if_neg Bool.false_ne_true]
  unfold atoi
  rw [hstart]
  split
  · next heq => exact absurd (hall '-' (heq ▸ List.mem_cons_self)) (by decide)
  · next heq => exact absurd (hall '+' (heq ▸ List.mem_cons_self)) (by decide)
  · rw [hlead]

end Text

end EmergencyNet
