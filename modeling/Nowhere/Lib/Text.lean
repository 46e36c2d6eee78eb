import Mathlib.Data.List.Basic
import Mathlib.Tactic.IntervalCases

/-!
# Texts

Texts as lists of bytes. A separator splits a text at its first or last occurrence. In a
percent-encoded text a byte may be written as an escape, a percent sign and two hexadecimal
digits; decoding takes the escapes apart and leaves everything else alone. There are many encodings
of a text, since every byte may be escaped and the digits have two cases; `Encodes` relates a text
to all that escape at least certain bytes.
-/

namespace Text

/-! ## Splitting at a separator -/

section Splitting

variable {α : Type} [DecidableEq α]

/-- What stands before and after the first `sep`. -/
def splitOnce (sep : α) : List α → Option (List α × List α)
  | [] => none
  | x :: xs => if x = sep then some ([], xs) else (splitOnce sep xs).map fun p => (x :: p.1, p.2)

/-- What stands before and after the last `sep`. -/
def rsplitOnce (sep : α) (xs : List α) : Option (List α × List α) :=
  (splitOnce sep xs.reverse).map fun p => (p.2.reverse, p.1.reverse)

variable {sep : α} {xs before after : List α}

theorem splitOnce_append (after : List α) (h : sep ∉ before) :
    splitOnce sep (before ++ sep :: after) = some (before, after) := by
  induction before with
  | nil => rw [List.nil_append, splitOnce, if_pos rfl]
  | cons x xs ih =>
    rw [List.mem_cons, not_or] at h
    rw [List.cons_append, splitOnce, if_neg (Ne.symm h.1), ih h.2]
    rfl

theorem splitOnce_eq_none_iff : splitOnce sep xs = none ↔ sep ∉ xs := by
  induction xs with
  | nil => simp [splitOnce]
  | cons x xs ih =>
    rw [splitOnce, List.mem_cons, not_or]
    split
    · rename_i hx
      simp [hx]
    · rename_i hx
      rw [Option.map_eq_none_iff, ih]
      exact ⟨fun h => ⟨Ne.symm hx, h⟩, And.right⟩

theorem splitOnce_eq_some_iff :
    splitOnce sep xs = some (before, after) ↔ xs = before ++ sep :: after ∧ sep ∉ before := by
  constructor
  · intro h
    induction xs generalizing before with
    | nil => cases h
    | cons x xs ih =>
      rw [splitOnce] at h
      split at h
      · rename_i hx
        cases h
        exact ⟨by rw [hx, List.nil_append], List.not_mem_nil⟩
      · rename_i hx
        obtain ⟨⟨before', after'⟩, hsplit, hp⟩ := Option.map_eq_some_iff.mp h
        cases hp
        obtain ⟨hxs, hnot⟩ := ih hsplit
        refine ⟨by rw [hxs, List.cons_append], ?_⟩
        rw [List.mem_cons, not_or]
        exact ⟨Ne.symm hx, hnot⟩
  · rintro ⟨rfl, h⟩
    exact splitOnce_append after h

theorem rsplitOnce_append (before : List α) (h : sep ∉ after) :
    rsplitOnce sep (before ++ sep :: after) = some (before, after) := by
  have hrev : (before ++ sep :: after).reverse = after.reverse ++ sep :: before.reverse := by simp
  rw [rsplitOnce, hrev, splitOnce_append _ (by simpa using h), Option.map_some,
    List.reverse_reverse, List.reverse_reverse]

theorem eq_of_rsplitOnce (h : rsplitOnce sep xs = some (before, after)) :
    xs = before ++ sep :: after := by
  obtain ⟨⟨after', before'⟩, hsplit, hp⟩ := Option.map_eq_some_iff.mp h
  cases hp
  rw [← List.reverse_reverse xs, (splitOnce_eq_some_iff.mp hsplit).1]
  simp

/-- Splitting at every separator loses nothing but the separators. -/
theorem exists_mem_splitOn {x : α} (hne : x ≠ sep) (h : x ∈ xs) :
    ∃ part ∈ xs.splitOn sep, x ∈ part := by
  induction xs with
  | nil => cases h
  | cons y ys ih =>
    rw [List.splitOn_cons_eq_if_modifyHead]
    by_cases hy : y = sep
    · rw [if_pos (beq_iff_eq.mpr hy)]
      rcases List.mem_cons.mp h with rfl | hys
      · exact absurd hy hne
      · obtain ⟨part, hpart, hx⟩ := ih hys
        exact ⟨part, List.mem_cons_of_mem _ hpart, hx⟩
    · obtain ⟨first, parts, hparts⟩ := List.exists_cons_of_ne_nil (List.splitOn_ne_nil sep ys)
      rw [if_neg (mt beq_iff_eq.mp hy), hparts, List.modifyHead_cons]
      rw [hparts] at ih
      rcases List.mem_cons.mp h with rfl | hys
      · exact ⟨x :: first, List.mem_cons_self, List.mem_cons_self⟩
      · obtain ⟨part, hpart, hx⟩ := ih hys
        rcases List.mem_cons.mp hpart with rfl | hpart
        · exact ⟨y :: part, List.mem_cons_self, List.mem_cons_of_mem _ hx⟩
        · exact ⟨part, List.mem_cons_of_mem _ hpart, hx⟩

end Splitting

/-! ## Hexadecimal digits -/

/-- The value of a hexadecimal digit of either case. -/
def hexValue (byte : UInt8) : Option Nat :=
  if 48 ≤ byte ∧ byte ≤ 57 then some (byte.toNat - 48)
  else if 65 ≤ byte ∧ byte ≤ 70 then some (byte.toNat - 55)
  else if 97 ≤ byte ∧ byte ≤ 102 then some (byte.toNat - 87)
  else none

def isHexDigit (byte : UInt8) : Bool := (hexValue byte).isSome

/-! ## Numerals -/

/-- The digit of a value below sixteen, in lower case. -/
def digit (n : Nat) : UInt8 := if n < 10 then UInt8.ofNat (48 + n) else UInt8.ofNat (87 + n)

/-- The numeral of `n` in a base of at least two, without leading zeros. -/
def numeral (base n : Nat) : List UInt8 :=
  if n < base ∨ base < 2 then [digit n] else numeral base (n / base) ++ [digit (n % base)]
termination_by n
decreasing_by exact Nat.div_lt_self (by omega) (by omega)

/-- The value of a numeral; the empty text is none. -/
def readNumeral (base : Nat) (text : List UInt8) : Option Nat :=
  if text = [] then none
  else text.foldlM (fun n byte =>
    ((hexValue byte).filter (· < base)).map (base * n + ·)) 0

section Numerals

variable {base n : Nat} {byte : UInt8}

theorem hexValue_digit (h : n < 16) : hexValue (digit n) = some n := by
  interval_cases n <;> rfl

theorem numeral_of_lt (h : n < base) : numeral base n = [digit n] := by
  rw [numeral, if_pos (.inl h)]

theorem numeral_of_le (hbase : 2 ≤ base) (h : base ≤ n) :
    numeral base n = numeral base (n / base) ++ [digit (n % base)] := by
  rw [numeral, if_neg (by omega)]

theorem numeral_ne_nil (n : Nat) : numeral base n ≠ [] := by
  unfold numeral
  split <;> simp

theorem isHexDigit_of_mem_numeral (h16 : base ≤ 16) (hbase : 2 ≤ base) (h : byte ∈ numeral base n) :
    isHexDigit byte = true := by
  have hdigit {k : Nat} (hk : k < base) : isHexDigit (digit k) = true := by
    rw [isHexDigit, hexValue_digit (by omega), Option.isSome_some]
  induction n using Nat.strongRecOn with
  | ind n ih =>
    rcases Nat.lt_or_ge n base with hlt | hge
    · rw [numeral_of_lt hlt, List.mem_singleton] at h
      rw [h]
      exact hdigit hlt
    · rw [numeral_of_le hbase hge, List.mem_append, List.mem_singleton] at h
      rcases h with h | h
      · exact ih _ (Nat.div_lt_self (by omega) (by omega)) h
      · rw [h]
        exact hdigit (Nat.mod_lt _ (by omega))

/-- A byte that is no digit does not occur in a numeral. -/
theorem not_mem_numeral (h16 : base ≤ 16) (hbase : 2 ≤ base) {byte : UInt8}
    (h : isHexDigit byte = false) (n : Nat) : byte ∉ numeral base n := by
  intro hmem
  rw [isHexDigit_of_mem_numeral h16 hbase hmem] at h
  cases h

theorem length_numeral_le (hbase : 2 ≤ base) {k : Nat} (h : n < base ^ (k + 1)) :
    (numeral base n).length ≤ k + 1 := by
  induction k generalizing n with
  | zero =>
    rw [Nat.zero_add, Nat.pow_one] at h
    rw [numeral_of_lt h, List.length_singleton]
  | succ k ih =>
    rcases Nat.lt_or_ge n base with hlt | hge
    · rw [numeral_of_lt hlt, List.length_singleton]
      omega
    · rw [numeral_of_le hbase hge, List.length_append, List.length_singleton]
      have hdiv : n / base < base ^ (k + 1) :=
        Nat.div_lt_of_lt_mul (by rwa [Nat.mul_comm, ← Nat.pow_succ])
      exact Nat.succ_le_succ (ih hdiv)

theorem head_numeral (hbase : 2 ≤ base) (h16 : base ≤ 16) (h : (numeral base n).head? = some 48) :
    n = 0 := by
  induction n using Nat.strongRecOn with
  | ind n ih =>
    rcases Nat.lt_or_ge n base with hlt | hge
    · rw [numeral_of_lt hlt, List.head?_cons, Option.some.injEq] at h
      have hvalue := hexValue_digit (show n < 16 by omega)
      rw [h] at hvalue
      exact (Option.some.inj hvalue).symm
    · rw [numeral_of_le hbase hge, List.head?_append_of_ne_nil _ (numeral_ne_nil _)] at h
      have hzero := ih _ (Nat.div_lt_self (by omega) (by omega)) h
      exact absurd (Nat.div_eq_zero_iff.mp hzero) (by omega)

theorem readNumeral_numeral (hbase : 2 ≤ base) (h16 : base ≤ 16) (n : Nat) :
    readNumeral base (numeral base n) = some n := by
  rw [readNumeral, if_neg (numeral_ne_nil n)]
  have hdigit {k : Nat} (hk : k < base) : (hexValue (digit k)).filter (· < base) = some k := by
    rw [hexValue_digit (by omega), Option.filter_some]
    simp [hk]
  induction n using Nat.strongRecOn with
  | ind n ih =>
    rcases Nat.lt_or_ge n base with hlt | hge
    · rw [numeral_of_lt hlt, List.foldlM_cons, hdigit hlt]
      simp
    · rw [numeral_of_le hbase hge, List.foldlM_append,
        ih _ (Nat.div_lt_self (by omega) (by omega)), Option.bind_eq_bind, Option.bind_some,
        List.foldlM_cons, hdigit (Nat.mod_lt _ (by omega))]
      simp [Nat.div_add_mod]

end Numerals

/-! ## Percent encoding -/

/-- The byte that starts an escape. -/
def percent : UInt8 := 37

/-- A percent sign that starts no escape stands for itself. -/
def percentDecode : List UInt8 → List UInt8
  | [] => []
  | [byte] => [byte]
  | [byte, next] => [byte, next]
  | byte :: high :: low :: rest =>
    if byte = percent then
      match hexValue high, hexValue low with
      | some x, some y => UInt8.ofNat (16 * x + y) :: percentDecode rest
      | _, _ => byte :: percentDecode (high :: low :: rest)
    else byte :: percentDecode (high :: low :: rest)

/-- `raw` is `text` with some bytes escaped, among them all that are in `must`. -/
inductive Encodes (must : UInt8 → Prop) : List UInt8 → List UInt8 → Prop
  | nil : Encodes must [] []
  | plain {byte : UInt8} {text raw : List UInt8} (free : ¬ must byte)
      (rest : Encodes must text raw) : Encodes must (byte :: text) (byte :: raw)
  | escaped {high low : UInt8} {x y : Nat} {text raw : List UInt8} (hhigh : hexValue high = some x)
      (hlow : hexValue low = some y) (rest : Encodes must text raw) :
      Encodes must (UInt8.ofNat (16 * x + y) :: text) (percent :: high :: low :: raw)

/-- Every percent sign starts an escape. -/
def WellEscaped (raw : List UInt8) : Prop :=
  ∀ i, raw[i]? = some percent → ∃ high low, raw[i + 1]? = some high ∧ raw[i + 2]? = some low ∧
    isHexDigit high = true ∧ isHexDigit low = true

/-- A decoder that takes the escapes of a well-escaped text byte by byte. -/
structure Unescapes (decode : List UInt8 → List UInt8) : Prop where
  nil : decode [] = []
  plain : ∀ {byte raw}, byte ≠ percent → WellEscaped raw →
    decode (byte :: raw) = byte :: decode raw
  escape : ∀ {high low x y raw}, hexValue high = some x → hexValue low = some y →
    WellEscaped raw → decode (percent :: high :: low :: raw) =
      UInt8.ofNat (16 * x + y) :: decode raw

theorem unescapes_percentDecode : Unescapes percentDecode where
  nil := rfl
  plain {byte raw} h _ := by
    match raw with
    | [] => rfl
    | [_] => rfl
    | _ :: _ :: _ => rw [percentDecode, if_neg h]
  escape hhigh hlow _ := by rw [percentDecode, if_pos rfl, hhigh, hlow]

theorem isHexDigit_of_hexValue {byte : UInt8} {x : Nat} (h : hexValue byte = some x) :
    isHexDigit byte = true := by
  rw [isHexDigit, h, Option.isSome_some]

theorem percent_not_hex : isHexDigit percent = false := by decide

namespace WellEscaped

theorem nil : WellEscaped [] := by
  intro i hi
  cases hi

variable {byte : UInt8} {raw : List UInt8}

theorem cons (h : WellEscaped raw) (hne : byte ≠ percent) :
    WellEscaped (byte :: raw) := by
  intro i hi
  cases i with
  | zero => exact absurd (Option.some.inj hi) hne
  | succ i => exact h i hi

theorem escape {high low : UInt8} (h : WellEscaped raw) (hhigh : isHexDigit high = true)
    (hlow : isHexDigit low = true) :
    WellEscaped (percent :: high :: low :: raw) := by
  have hne {byte : UInt8} (hhex : isHexDigit byte = true) : byte ≠ percent := by
    rintro rfl
    rw [percent_not_hex] at hhex
    cases hhex
  intro i hi
  cases i with
  | zero => exact ⟨high, low, rfl, rfl, hhigh, hlow⟩
  | succ i => exact ((h.cons (hne hlow)).cons (hne hhigh)) i hi

/-- The other way round, what follows a byte or an escape is well-escaped. -/
theorem tail (h : WellEscaped (byte :: raw)) :
    WellEscaped raw := fun i hi => h (i + 1) hi

theorem digits (h : WellEscaped (percent :: raw)) :
    ∃ high low rest, raw = high :: low :: rest ∧ isHexDigit high = true ∧
      isHexDigit low = true := by
  obtain ⟨high, low, hhigh, hlow, hhex⟩ := h 0 rfl
  match raw with
  | [] => cases hhigh
  | [_] => cases hlow
  | high' :: low' :: rest =>
    cases hhigh
    cases hlow
    exact ⟨high, low, rest, rfl, hhex⟩

theorem append {raw' : List UInt8} (h : WellEscaped raw) (h' : WellEscaped raw') :
    WellEscaped (raw ++ raw') := by
  intro i hi
  rcases Nat.lt_or_ge i raw.length with hlt | hge
  · rw [List.getElem?_append_left hlt] at hi
    obtain ⟨high, low, hhigh, hlow, hhex⟩ := h i hi
    have hhigh' := (List.getElem?_eq_some_iff.mp hhigh).1
    have hlow' := (List.getElem?_eq_some_iff.mp hlow).1
    refine ⟨high, low, ?_, ?_, hhex⟩
    · rw [List.getElem?_append_left hhigh', hhigh]
    · rw [List.getElem?_append_left hlow', hlow]
  · rw [List.getElem?_append_right hge] at hi
    obtain ⟨high, low, hhigh, hlow, hhex⟩ := h' _ hi
    refine ⟨high, low, ?_, ?_, hhex⟩
    · rw [List.getElem?_append_right (by omega), ← hhigh]
      congr 1
      omega
    · rw [List.getElem?_append_right (by omega), ← hlow]
      congr 1
      omega

end WellEscaped

namespace Encodes

variable {must : UInt8 → Prop} {text raw : List UInt8}

theorem ne_of_free {byte byte' : UInt8} (free : ¬ must byte) (h : must byte') : byte ≠ byte' := by
  rintro rfl
  exact free h

theorem wellEscaped (h : Encodes must text raw) (hpercent : must percent) : WellEscaped raw := by
  induction h with
  | nil => exact .nil
  | plain free _ ih => exact ih.cons (ne_of_free free hpercent)
  | escaped hhigh hlow _ ih =>
    exact ih.escape (isHexDigit_of_hexValue hhigh) (isHexDigit_of_hexValue hlow)

theorem decode {d : List UInt8 → List UInt8} (hd : Unescapes d) (h : Encodes must text raw)
    (hpercent : must percent) : d raw = text := by
  induction h with
  | nil => exact hd.nil
  | plain free rest ih =>
    rw [hd.plain (ne_of_free free hpercent) (rest.wellEscaped hpercent), ih]
  | escaped hhigh hlow rest ih => rw [hd.escape hhigh hlow (rest.wellEscaped hpercent), ih]

/-- A byte that has to be escaped does not occur, unless escapes are made of it. -/
theorem not_mem (h : Encodes must text raw) {byte : UInt8} (hmust : must byte)
    (hpercent : byte ≠ percent) (hhex : isHexDigit byte = false) : byte ∉ raw := by
  have hdigit {digit : UInt8} {x : Nat} (hx : hexValue digit = some x) : byte ≠ digit := by
    rintro rfl
    rw [isHexDigit_of_hexValue hx] at hhex
    cases hhex
  induction h with
  | nil => exact List.not_mem_nil
  | plain free _ ih =>
    rw [List.mem_cons, not_or]
    exact ⟨Ne.symm (ne_of_free free hmust), ih⟩
  | escaped hhigh hlow _ ih =>
    simp only [List.mem_cons, not_or]
    exact ⟨hpercent, hdigit hhigh, hdigit hlow, ih⟩

end Encodes

end Text
