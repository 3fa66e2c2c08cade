/-
  Numbers written as digits.

  * `digits base n` — the digits of `n`, most significant first, at least one;
  * `Text.ofNat`, `Text.ofInt` — decimal notation, a minus sign in front of a negative number;
  * `Text.hex`, `Text.hexFixed` — upper-case hexadecimal, of the least or of a fixed width;
  * `CodePoint.decimal?`, `CodePoint.hex?` — the value of one digit, read back.
-/
import NegationLint.Text.Basic

namespace NegationLint

/-- Digits of `n` with at most `fuel` of them, most significant first. -/
def digitsWithin : Nat → Nat → Nat → List Nat
  | 0, _, _ => []
  | fuel + 1, base, n =>
    if n < base then [n] else digitsWithin fuel base (n / base) ++ [n % base]

/-- The digits of `n` in a base of two or more, most significant first. -/
def digits (base n : Nat) : List Nat := digitsWithin (n + 1) base n

namespace CodePoint

/-- The digit for a value below sixteen, letters in upper case. -/
def ofDigit (d : Nat) : CodePoint :=
  if h : d < 10 then ⟨0x30 + d, by omega⟩ else if h : d < 16 then ⟨0x37 + d, by omega⟩ else ofChar '?'

/-- The digit for a value below sixteen, letters in lower case. -/
def ofDigitLower (d : Nat) : CodePoint :=
  if h : d < 10 then ⟨0x30 + d, by omega⟩ else if h : d < 16 then ⟨0x57 + d, by omega⟩ else ofChar '?'

/-- The value of one of the digits `0` to `9`. -/
def decimal? (c : CodePoint) : Option Nat :=
  if c.within '0' '9' then some (c.val - 0x30) else none

/-- The value of a hexadecimal digit in either case. -/
def hex? (c : CodePoint) : Option Nat :=
  if c.within '0' '9' then some (c.val - 0x30)
  else if c.within 'a' 'f' then some (c.val - 0x57)
  else if c.within 'A' 'F' then some (c.val - 0x37)
  else none

/-- One of the digits `0` to `9`. -/
def isDecimal (c : CodePoint) : Bool := c.within '0' '9'

end CodePoint

namespace Text

/-- A natural number in decimal notation. -/
def ofNat (n : Nat) : Text := (digits 10 n).map CodePoint.ofDigit

/-- An integer in decimal notation. -/
def ofInt : Int → Text
  | .ofNat n => ofNat n
  | .negSucc n => CodePoint.ofChar '-' :: ofNat (n + 1)

/-- A natural number in upper-case hexadecimal notation. -/
def hex (n : Nat) : Text := (digits 16 n).map CodePoint.ofDigit

/-- The last `width` digits of `n` in upper-case hexadecimal notation, zeros in front. -/
def hexFixed : Nat → Nat → Text
  | 0, _ => []
  | width + 1, n => hexFixed width (n / 16) ++ [CodePoint.ofDigit (n % 16)]

/-- The last `width` digits of `n` in lower-case hexadecimal notation, zeros in front. -/
def hexFixedLower : Nat → Nat → Text
  | 0, _ => []
  | width + 1, n => hexFixedLower width (n / 16) ++ [CodePoint.ofDigitLower (n % 16)]

/-- The most digits that are read as one integer. -/
def digitLimit : Nat := 4300

/-- The number that a run of decimal digits denotes; what is no digit counts as zero. -/
def decimalValue (t : Text) : Nat := t.foldl (fun n c => 10 * n + c.decimal?.getD 0) 0

end Text

theorem CodePoint.decimal?_ofDigit {d : Nat} (h : d < 10) : (ofDigit d).decimal? = some d := by
  revert d; decide

theorem CodePoint.isDecimal_ofDigit {d : Nat} (h : d < 10) : (ofDigit d).isDecimal = true := by
  revert d; decide

/-- The ten digits are the decimal ones. -/
theorem CodePoint.isDecimal_iff {c : CodePoint} : c.isDecimal = true ↔ ∃ d : Fin 10, ofDigit d = c := by
  constructor
  · intro h
    obtain ⟨low, high⟩ := Bool.and_eq_true_iff.1 h
    have low : 0x30 ≤ c.val := of_decide_eq_true low
    have high : c.val ≤ 0x39 := of_decide_eq_true high
    refine ⟨⟨c.val - 0x30, by omega⟩, ext_val ?_⟩
    rw [ofDigit, dif_pos (by show c.val - 0x30 < 10; omega)]
    show 0x30 + (c.val - 0x30) = c.val
    omega
  · rintro ⟨d, rfl⟩
    exact isDecimal_ofDigit d.isLt

theorem CodePoint.hex?_ofDigit {d : Nat} (h : d < 16) : (ofDigit d).hex? = some d := by
  revert d; decide

/-- Every digit is below the base. -/
theorem lt_of_mem_digitsWithin {base : Nat} (hb : 0 < base) :
    ∀ {fuel n d : Nat}, d ∈ digitsWithin fuel base n → d < base
  | 0, _, _, h => by simp [digitsWithin] at h
  | fuel + 1, n, d, h => by
    unfold digitsWithin at h
    split at h
    · simp only [List.mem_singleton] at h; omega
    · rcases List.mem_append.1 h with h | h
      · exact lt_of_mem_digitsWithin hb h
      · simp only [List.mem_singleton] at h; subst h; exact Nat.mod_lt _ hb

/-- The digits, read from the left, give the number back. -/
theorem foldl_digitsWithin {base : Nat} (hb : 1 < base) :
    ∀ {fuel n : Nat}, n < fuel → (digitsWithin fuel base n).foldl (fun m d => base * m + d) 0 = n
  | fuel + 1, n, h => by
    unfold digitsWithin
    split
    · simp
    · have hlt : n / base < n := Nat.div_lt_self (by omega) hb
      rw [List.foldl_append, foldl_digitsWithin hb (by omega)]
      simpa using Nat.div_add_mod n base

/-- There is at least one digit. -/
theorem length_digits_pos (base n : Nat) : 0 < (digits base n).length := by
  rw [digits, digitsWithin]
  split
  · exact Nat.one_pos
  · rw [List.length_append]
    exact Nat.succ_pos _

/-- The first digit of a number other than zero is not zero. -/
theorem exists_cons_of_digitsWithin {base : Nat} (hb : 1 < base) {fuel n : Nat} (h : n < fuel)
    (pos : 0 < n) : ∃ d ds, digitsWithin fuel base n = d :: ds ∧ 0 < d := by
  induction fuel generalizing n with
  | zero => omega
  | succ fuel ih =>
    rw [digitsWithin]
    split
    · exact ⟨n, [], rfl, pos⟩
    · rename_i large
      have smaller : n / base < n := Nat.div_lt_self pos hb
      have front : 0 < n / base := Nat.div_pos (by omega) (by omega)
      obtain ⟨d, ds, hds, hd⟩ := ih (by omega) front
      exact ⟨d, ds ++ [n % base], by rw [hds, List.cons_append], hd⟩

/-- A number below the power of a base has no more digits than the power. -/
theorem length_digitsWithin_le {base fuel n l : Nat} (hl : 0 < l) (h : n < Nat.pow base l) :
    (digitsWithin fuel base n).length ≤ l := by
  induction fuel generalizing n l with
  | zero => exact Nat.zero_le l
  | succ fuel ih =>
    rw [digitsWithin]
    split
    · exact hl
    · rename_i large
      obtain ⟨k, rfl⟩ : ∃ k, l = k + 1 := ⟨l - 1, by omega⟩
      have split : Nat.pow base (k + 1) = base * Nat.pow base k := Nat.mul_comm _ _
      have front : n / base < Nat.pow base k := Nat.div_lt_of_lt_mul (split ▸ h)
      have pos : 0 < k := by
        rcases Nat.eq_zero_or_pos k with rfl | pos
        · have single : Nat.pow base (0 + 1) = base := Nat.one_mul base
          rw [single] at h
          exact absurd h large
        · exact pos
      rw [List.length_append, List.length_singleton]
      exact Nat.succ_le_succ (ih pos front)

namespace Text

theorem length_ofNat_le {n l : Nat} (hl : 0 < l) (h : n < Nat.pow 10 l) : (ofNat n).length ≤ l := by
  rw [ofNat, List.length_map]
  exact length_digitsWithin_le hl h

theorem length_hex_pos (n : Nat) : 0 < (hex n).length := by
  rw [hex, List.length_map]
  exact length_digits_pos 16 n

theorem ofNat_ne_nil (n : Nat) : ofNat n ≠ [] := by
  intro h
  have := length_digits_pos 10 n
  rw [List.map_eq_nil_iff.1 h] at this
  exact Nat.lt_irrefl 0 this

theorem isDecimal_of_mem_ofNat {n : Nat} {c : CodePoint} (h : c ∈ ofNat n) : c.isDecimal = true := by
  obtain ⟨d, hd, rfl⟩ := List.mem_map.1 h
  exact CodePoint.isDecimal_ofDigit (lt_of_mem_digitsWithin (by decide) hd)

theorem foldl_map_ofDigit {ds : List Nat} (below : ∀ d ∈ ds, d < 10) (m : Nat) :
    (ds.map CodePoint.ofDigit).foldl (fun n c => 10 * n + c.decimal?.getD 0) m
      = ds.foldl (fun n d => 10 * n + d) m := by
  induction ds generalizing m with
  | nil => rfl
  | cons d ds ih =>
    rw [List.map_cons, List.foldl_cons, List.foldl_cons,
      CodePoint.decimal?_ofDigit (below d List.mem_cons_self)]
    exact ih (fun e he => below e (List.mem_cons_of_mem d he)) _

/-- Decimal notation denotes the number that it is for. -/
theorem decimalValue_ofNat (n : Nat) : decimalValue (ofNat n) = n := by
  have below : ∀ d ∈ digits 10 n, d < 10 := fun d hd => lt_of_mem_digitsWithin (by decide) hd
  rw [decimalValue, ofNat, foldl_map_ofDigit below]
  exact foldl_digitsWithin (by decide) (Nat.lt_succ_self n)

/-- Digits end where something else begins. -/
theorem takeWhile_digits {s t : Text} (digits : ∀ c ∈ s, c.isDecimal = true)
    (stop : t.head?.any CodePoint.isDecimal = false) : (s ++ t).takeWhile CodePoint.isDecimal = s := by
  rw [List.takeWhile_append_of_pos digits]
  cases t with
  | nil => exact List.append_nil s
  | cons c t => rw [List.takeWhile_cons_of_neg (Bool.not_eq_true _ ▸ stop), List.append_nil]

theorem dropWhile_digits {s t : Text} (digits : ∀ c ∈ s, c.isDecimal = true)
    (stop : t.head?.any CodePoint.isDecimal = false) : (s ++ t).dropWhile CodePoint.isDecimal = t := by
  rw [List.dropWhile_append_of_pos digits]
  cases t with
  | nil => rfl
  | cons c t => exact List.dropWhile_cons_of_neg (Bool.not_eq_true _ ▸ stop)

theorem length_hexFixed (width n : Nat) : (hexFixed width n).length = width := by
  induction width generalizing n with
  | zero => rfl
  | succ width ih => rw [hexFixed, List.length_append, ih, List.length_singleton]

end Text

end NegationLint
