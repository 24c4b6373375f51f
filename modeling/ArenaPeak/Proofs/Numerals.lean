import ArenaPeak.Json.Reader
import ArenaPeak.Record.Row

/-!
Numbers read back from their digits: in decimal without zeros before them, and in hexadecimal in the
sixteen digits of a word.
-/

namespace ArenaPeak.Text

/-- Reads a number in decimal digits. -/
def decimal? (s : String) : Option Nat :=
  if s.toList.isEmpty || !s.toList.all Char.isDigit then none
  else some (Nat.ofDigitChars 10 s.toList 0)

theorem decimal?_toString (n : Nat) : decimal? (toString n) = some n := by
  have digits : ∀ c ∈ Nat.toDigits 10 n, c.isDigit = true :=
    fun c mem => Nat.isDigit_of_mem_toDigits (by omega) (by omega) mem
  rw [decimal?, Nat.toString_eq_repr, Nat.toList_repr, if_neg, Nat.ofDigitChars_ten_toDigits]
  simpa using digits

/-- Reads a number in hexadecimal digits. -/
def hexadecimal? (cs : List Char) : Option Nat :=
  cs.foldlM (fun n c => (Json.hexValue? c).map (16 * n + ·)) 0

theorem hexadecimal?_append_singleton (cs : List Char) (c : Char) :
    hexadecimal? (cs ++ [c]) =
      (hexadecimal? cs).bind fun n => (Json.hexValue? c).map (16 * n + ·) := by
  rw [hexadecimal?, List.foldlM_append]
  simp [hexadecimal?]

theorem hexadecimal?_toDigits (n : Nat) : hexadecimal? (Nat.toDigits 16 n) = some n := by
  induction n using Nat.strongRecOn with
  | ind n ih =>
      rw [Nat.toDigits_eq_if (by omega)]
      split
      · next small => simp [hexadecimal?, Json.hexValue?_digitChar n small]
      · next large =>
          rw [hexadecimal?_append_singleton, ih (n / 16) (by omega), Option.bind_some,
            Json.hexValue?_digitChar _ (Nat.mod_lt n (by omega)), Option.map_some, Nat.div_add_mod]

theorem hexadecimal?_zeros (k : Nat) (cs : List Char) :
    hexadecimal? (List.replicate k '0' ++ cs) = hexadecimal? cs := by
  induction k with
  | zero => rfl
  | succ k ih =>
      rw [← ih, List.replicate_succ, List.cons_append, hexadecimal?, List.foldlM_cons]
      rfl

/-- The sixteen digits of a word in hexadecimal. -/
def wordDigits (w : UInt64) : List Char :=
  let digits := Nat.toDigits 16 w.toNat
  List.replicate (16 - digits.length) '0' ++ digits

theorem hexWord_eq (w : UInt64) : Row.hexWord w = "0x" ++ String.ofList (wordDigits w) :=
  rfl

theorem length_wordDigits (w : UInt64) : (wordDigits w).length = 16 := by
  have fits : (Nat.toDigits 16 w.toNat).length ≤ 16 :=
    (Nat.length_toDigits_le_iff (by omega) (by omega)).mpr w.toNat_lt
  rw [wordDigits, List.length_append, List.length_replicate]
  omega

theorem hexadecimal?_wordDigits (w : UInt64) : hexadecimal? (wordDigits w) = some w.toNat := by
  rw [wordDigits, hexadecimal?_zeros, hexadecimal?_toDigits]

/-- Digits that can be read are no blanks. -/
theorem not_blank_of_hexadecimal? {cs : List Char} {n : Nat} (read : hexadecimal? cs = some n) :
    ' ' ∉ cs := by
  intro mem
  obtain ⟨before, after, rfl⟩ := List.append_of_mem mem
  have failed : Json.hexValue? ' ' = none := by decide
  rw [hexadecimal?, List.foldlM_append] at read
  obtain ⟨m, -, read⟩ := Option.bind_eq_some_iff.mp read
  rw [List.foldlM_cons, failed] at read
  cases read

end ArenaPeak.Text
