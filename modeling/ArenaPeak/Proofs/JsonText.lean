import ArenaPeak.Json.Reader
import ArenaPeak.Json.Writer
import Mathlib.Data.List.TakeWhile

/-!
Reading what was written. A character comes back from however it is escaped, a number from its
digits, and a value from what is written of its parts; what follows a value stays unread as long as
it does not go on with a number.
-/

namespace ArenaPeak.Json

/-! ### Strings -/

/-- What a character is read back as: a control character without a name of its own is written by
its number. -/
def pieceOf (c : Char) : Piece :=
  if c.toNat < 0x20 ∧ c ∉ ['\x08', '\x0c', '\n', '\r', '\t'] then .unit c.toNat else .char c

theorem unit?_small {n : Nat} (h : n < 0x20) :
    unit? '0' '0' (n / 16).digitChar (n % 16).digitChar = some n := by
  have zero : hexValue? '0' = some 0 := by decide
  rw [unit?, zero, hexValue?_digitChar _ (by omega), hexValue?_digitChar _ (by omega)]
  simp only [Option.bind_eq_bind, Option.bind_some, pure, Option.some.injEq]
  omega

/-- The ways in which a character is written. -/
inductive Escapes (c : Char) : List Char → Piece → Prop
  | named (e : Char) (other : e ≠ 'u') (back : escaped? e = some c) : Escapes c ['\\', e] (.char c)
  | numbered (small : c.toNat < 0x20) :
      Escapes c ['\\', 'u', '0', '0', (c.toNat / 16).digitChar, (c.toNat % 16).digitChar]
        (.unit c.toNat)
  | plain (large : 0x20 ≤ c.toNat) (quote : c ≠ '"') (slash : c ≠ '\\') : Escapes c [c] (.char c)

theorem escapes_escape (c : Char) : Escapes c (escape c) (pieceOf c) := by
  by_cases quote : c = '"'
  · subst quote
    exact .named '"' (by decide) rfl
  by_cases slash : c = '\\'
  · subst slash
    exact .named '\\' (by decide) rfl
  by_cases named : c ∈ ['\x08', '\x0c', '\n', '\r', '\t']
  · simp only [List.mem_cons, List.not_mem_nil, or_false] at named
    obtain rfl | rfl | rfl | rfl | rfl := named
    · exact .named 'b' (by decide) rfl
    · exact .named 'f' (by decide) rfl
    · exact .named 'n' (by decide) rfl
    · exact .named 'r' (by decide) rfl
    · exact .named 't' (by decide) rfl
  · have others := named
    simp only [List.mem_cons, List.not_mem_nil, or_false, not_or] at others
    obtain ⟨b, f, n, r, t⟩ := others
    simp only [escape, if_neg quote, if_neg slash, if_neg b, if_neg f, if_neg n, if_neg r, if_neg t,
      pieceOf, named, not_false_eq_true, and_true]
    split
    · next small => exact .numbered small
    · next large => exact .plain (Nat.le_of_not_lt large) quote slash

theorem readPieces_escapes {c : Char} {cs : List Char} {piece : Piece} (h : Escapes c cs piece)
    (rest : List Char) :
    readPieces (cs ++ rest) = (readPieces rest).map fun r => (piece :: r.1, r.2) := by
  cases h with
  | named e other back =>
      rw [List.cons_append, List.cons_append, List.nil_append, readPieces, back]
      · cases readPieces rest <;> rfl
      · intro a b c d rest' eq
        exact absurd eq other
  | numbered small =>
      simp only [List.cons_append, List.nil_append, readPieces, unit?_small small]
      cases readPieces rest <;> rfl
  | plain large quote slash =>
      rw [List.cons_append, List.nil_append, readPieces, if_neg (by simp [slash]; omega)]
      · cases readPieces rest <;> rfl
      · exact quote
      · intro a b c' d rest' eq
        exact absurd eq slash
      · intro c' rest' eq
        exact absurd eq slash

theorem readPieces_flatMap (cs rest : List Char) :
    readPieces (cs.flatMap escape ++ '"' :: rest) = some (cs.map pieceOf, rest) := by
  induction cs with
  | nil => rfl
  | cons c cs ih =>
      rw [List.flatMap_cons, List.append_assoc, readPieces_escapes (escapes_escape c), ih]
      rfl

theorem joinPieces_pieceOf (c : Char) (pieces : List Piece) :
    joinPieces (pieceOf c :: pieces) = (joinPieces pieces).map (c :: ·) := by
  rw [pieceOf]
  split
  · next control =>
      have high : isHigh c.toNat = false := by simp [isHigh]; omega
      have low : isLow c.toNat = false := by simp [isLow]; omega
      cases pieces with
      | nil => simp [joinPieces, high, low, Char.ofNat_toNat]
      | cons piece pieces => cases piece <;> simp [joinPieces, high, low, Char.ofNat_toNat]
  · rfl

theorem joinPieces_map (cs : List Char) : joinPieces (cs.map pieceOf) = some cs := by
  induction cs with
  | nil => rfl
  | cons c cs ih =>
      rw [List.map_cons, joinPieces_pieceOf, ih]
      rfl

theorem readString_write (s : String) (rest : List Char) :
    readString (s.toList.flatMap escape ++ '"' :: rest) = some (.str s, rest) := by
  rw [readString, readPieces_flatMap]
  simp only [Option.bind_eq_bind, Option.bind_some, joinPieces_map, String.ofList_toList]
  rfl

/-! ### Numbers -/

/-- What may follow a number: nothing that would go on with it. -/
def Ends (cs : List Char) : Prop :=
  ∀ c ∈ cs.head?, c.isDigit = false ∧ c ≠ '.' ∧ c ≠ 'e' ∧ c ≠ 'E'

/-- A reader that does not mind what follows its text, unless that goes on with a number. -/
def Reads {α : Type} (read : List Char → Option (α × List Char)) (cs : List Char) (a : α)
    (rest : List Char) : Prop :=
  ∀ more, (rest = [] → Ends more) → read (cs ++ more) = some (a, rest ++ more)

section Numbers

variable {cs rest part : List Char}

theorem span_append {p : Char → Bool} {more : List Char}
    (ends : cs.dropWhile p = [] → ∀ c ∈ more.head?, p c = false) :
    (cs ++ more).takeWhile p = cs.takeWhile p ∧
      (cs ++ more).dropWhile p = cs.dropWhile p ++ more := by
  induction cs with
  | nil =>
      cases more with
      | nil => exact ⟨rfl, rfl⟩
      | cons c more =>
          have stop := ends rfl c rfl
          simp [stop]
  | cons c cs ih =>
      by_cases goes : p c = true
      · rw [List.dropWhile_cons_of_pos goes] at ends
        simp [goes, ih ends]
      · simp [goes]

theorem reads_digits (h : readDigits cs = some (part, rest)) : Reads readDigits cs part rest := by
  intro more ends
  rw [readDigits] at h
  split at h
  · cases h
  · next there =>
      cases h
      obtain ⟨take, drop⟩ := span_append fun none c first => (ends none c first).1
      rw [readDigits, take, drop, if_neg there]

theorem readFraction_none (h : ∀ c ∈ cs.head?, c ≠ '.') : readFraction cs = some ([], cs) := by
  rw [readFraction]
  intro rest eq
  subst eq
  exact h '.' rfl rfl

/-- The sign of an exponent, if it has one. -/
def readSign : List Char → List Char × List Char
  | '+' :: rest => (['+'], rest)
  | '-' :: rest => (['-'], rest)
  | rest => ([], rest)

theorem readSign_append (c : Char) (cs more : List Char) :
    readSign (c :: cs ++ more) = ((readSign (c :: cs)).1, (readSign (c :: cs)).2 ++ more) := by
  rw [List.cons_append]
  by_cases plus : c = '+'
  · subst plus
    rfl
  by_cases minus : c = '-'
  · subst minus
    rfl
  · simp [readSign, plus, minus]

theorem readExponent_cons (e : Char) (cs : List Char) :
    readExponent (e :: cs) =
      if e == 'e' || e == 'E' then
        (readDigits (readSign cs).2).map fun r => (e :: (readSign cs).1 ++ r.1, r.2)
      else some ([], e :: cs) := by
  have bound (sign rest : List Char) : ((readDigits rest).bind fun r =>
      some (e :: sign ++ r.1, r.2)) = (readDigits rest).map fun r => (e :: sign ++ r.1, r.2) := by
    cases readDigits rest <;> rfl
  rw [readExponent.eq_def]
  dsimp only
  refine congrArg (ite _ · _) ?_
  cases cs with
  | nil => exact bound [] []
  | cons c cs =>
      by_cases plus : c = '+'
      · subst plus
        exact bound ['+'] cs
      by_cases minus : c = '-'
      · subst minus
        exact bound ['-'] cs
      · have signless : readSign (c :: cs) = ([], c :: cs) := by simp [readSign, plus, minus]
        rw [signless]
        split
        · next eq => cases eq; exact absurd rfl plus
        · next eq => cases eq; exact absurd rfl minus
        · exact bound [] (c :: cs)

theorem readExponent_none (h : ∀ c ∈ cs.head?, c ≠ 'e' ∧ c ≠ 'E') :
    readExponent cs = some ([], cs) := by
  cases cs with
  | nil => rfl
  | cons c cs => rw [readExponent_cons, if_neg (by simpa using h c rfl)]

/-- What stands first in a text that is left unread stands first when more follows it. -/
theorem head?_append {P : Char → Prop} {more : List Char} (h : ∀ c ∈ cs.head?, P c)
    (ends : cs = [] → ∀ c ∈ more.head?, P c) : ∀ c ∈ (cs ++ more).head?, P c := by
  cases cs with
  | nil => exact ends rfl
  | cons c cs => exact h

theorem reads_fraction (h : readFraction cs = some (part, rest)) :
    Reads readFraction cs part rest := by
  intro more ends
  rw [readFraction.eq_def] at h
  split at h
  · next cs =>
      obtain ⟨⟨digits, rest'⟩, read, result⟩ := Option.bind_eq_some_iff.mp h
      cases result
      rw [List.cons_append, readFraction, reads_digits read more ends]
      rfl
  · next none =>
      cases h
      refine readFraction_none (head?_append ?_ fun empty c first => (ends empty c first).2.1)
      rintro c first rfl
      obtain ⟨cs', eq⟩ := List.head?_eq_some_iff.mp first
      exact none cs' eq

theorem reads_exponent (h : readExponent cs = some (part, rest)) :
    Reads readExponent cs part rest := by
  intro more ends
  cases cs with
  | nil =>
      cases h
      exact readExponent_none fun c first => (ends rfl c first).2.2
  | cons e cs =>
      rw [readExponent_cons] at h
      split at h
      · next exponent =>
          obtain ⟨⟨digits, rest'⟩, read, result⟩ := Option.map_eq_some_iff.mp h
          cases result
          have there : ∃ c cs', cs = c :: cs' := by
            cases cs with
            | nil => cases read
            | cons c cs' => exact ⟨c, cs', rfl⟩
          obtain ⟨c, cs', rfl⟩ := there
          rw [List.cons_append, readExponent_cons, if_pos exponent, readSign_append,
            reads_digits read more ends]
          rfl
      · next none =>
          cases h
          refine readExponent_none ?_
          rintro c first
          cases first
          simpa using none

/-- The number that is written with some digits, a fraction and an exponent. -/
def numeral (negative : Bool) (digits fraction exponent : List Char) : Json :=
  if fraction.isEmpty && exponent.isEmpty && !(negative && decimal digits == 0) then
    .int (if negative then -(decimal digits : Int) else decimal digits)
  else .float (String.ofList ((if negative then ['-'] else []) ++ digits ++ fraction ++ exponent))

theorem readMagnitude_eq (negative : Bool) (cs : List Char) :
    readMagnitude negative cs = (readDigits cs).bind fun d =>
      if d.1.head? = some '0' && d.1 ≠ ['0'] then none
      else (readFraction d.2).bind fun f =>
        (readExponent f.2).map fun e => (numeral negative d.1 f.1 e.1, e.2) := by
  have made (digits fraction exponent rest : List Char) :
      (if fraction.isEmpty && exponent.isEmpty && !(negative && decimal digits == 0) then
          some (Json.int (if negative then -(decimal digits : Int) else decimal digits), rest)
        else some (.float (String.ofList
          ((if negative then ['-'] else []) ++ digits ++ fraction ++ exponent)), rest)) =
        some (numeral negative digits fraction exponent, rest) := by
    rw [numeral]
    split <;> rfl
  rw [readMagnitude]
  cases readDigits cs with
  | none => rfl
  | some d =>
      refine congrArg (ite _ none) ?_
      cases readFraction d.2 with
      | none => rfl
      | some f =>
          obtain ⟨fraction, rest⟩ := f
          dsimp only [Option.bind_eq_bind, Option.bind_some]
          cases readExponent rest with
          | none => rfl
          | some e => exact made d.1 fraction e.1 e.2

theorem reads_magnitude {negative : Bool} {j : Json}
    (h : readMagnitude negative cs = some (j, rest)) :
    Reads (readMagnitude negative) cs j rest := by
  intro more ends
  rw [readMagnitude_eq] at h
  obtain ⟨⟨digits, rest₁⟩, read₁, h⟩ := Option.bind_eq_some_iff.mp h
  dsimp only at h
  split at h
  · cases h
  · next lead =>
      obtain ⟨⟨fraction, rest₂⟩, read₂, h⟩ := Option.bind_eq_some_iff.mp h
      obtain ⟨⟨exponent, rest₃⟩, read₃, result⟩ := Option.map_eq_some_iff.mp h
      cases result
      -- a part that reaches the end of the text has only empty parts after it
      have ends₂ : rest₂ = [] → Ends more := by
        rintro rfl
        cases read₃
        exact ends rfl
      have ends₁ : rest₁ = [] → Ends more := by
        rintro rfl
        cases read₂
        exact ends₂ rfl
      rw [readMagnitude_eq, reads_digits read₁ more ends₁, Option.bind_some, if_neg lead,
        reads_fraction read₂ more ends₂, Option.bind_some, reads_exponent read₃ more ends]
      rfl

/-- A character with which a number may begin. -/
def isNumeric (c : Char) : Bool :=
  c == '-' || c.isDigit

theorem head_of_readNumber {j : Json} (h : readNumber cs = some (j, rest)) :
    ∃ c cs', cs = c :: cs' ∧ isNumeric c = true := by
  rw [readNumber.eq_def] at h
  split at h
  · exact ⟨'-', _, rfl, rfl⟩
  · rw [readMagnitude_eq, readDigits] at h
    cases cs with
    | nil => cases h
    | cons c cs =>
        refine ⟨c, cs, rfl, ?_⟩
        by_contra other
        have digit : c.isDigit = false := by
          simp only [isNumeric, Bool.or_eq_true, not_or, Bool.not_eq_true] at other
          exact other.2
        simp [digit] at h

theorem reads_number {j : Json} (h : readNumber cs = some (j, rest)) :
    Reads readNumber cs j rest := by
  intro more ends
  obtain ⟨c, cs', rfl, -⟩ := head_of_readNumber h
  by_cases minus : c = '-'
  · subst minus
    exact reads_magnitude h more ends
  · have unsigned (l : List Char) : readNumber (c :: l) = readMagnitude false (c :: l) := by
      simp [readNumber, minus]
    rw [unsigned] at h
    rw [List.cons_append, unsigned]
    exact reads_magnitude h more ends

theorem decimal_toDigits (n : Nat) : decimal (Nat.toDigits 10 n) = n :=
  Nat.ofDigitChars_ten_toDigits

/-- No zero stands before other digits. -/
theorem lead_toDigits (n : Nat) (zero : (Nat.toDigits 10 n).head? = some '0') :
    Nat.toDigits 10 n = ['0'] := by
  rw [Nat.toDigits_eq_if (by omega)] at zero ⊢
  split at zero
  · next small =>
      rw [if_pos small]
      rw [List.head?_cons, Option.some.injEq] at zero
      rw [zero]
  · next large =>
      have front : (Nat.toDigits 10 (n / 10)).head? = some '0' := by
        obtain ⟨c, cs, digits⟩ := List.exists_cons_of_ne_nil (Nat.toDigits_ne_nil (b := 10))
        rw [digits] at zero ⊢
        exact zero
      have value := decimal_toDigits (n / 10)
      rw [lead_toDigits (n / 10) front] at value
      have : decimal ['0'] = 0 := rfl
      omega
termination_by n

theorem readMagnitude_toDigits (negative : Bool) (n : Nat) :
    readMagnitude negative (Nat.toDigits 10 n) =
      some (numeral negative (Nat.toDigits 10 n) [] [], []) := by
  have digits : ∀ c ∈ Nat.toDigits 10 n, c.isDigit = true :=
    fun c mem => Nat.isDigit_of_mem_toDigits (by omega) (by omega) mem
  have read : readDigits (Nat.toDigits 10 n) = some (Nat.toDigits 10 n, []) := by
    have take : (Nat.toDigits 10 n).takeWhile Char.isDigit = Nat.toDigits 10 n :=
      List.takeWhile_eq_self_iff.mpr digits
    have drop : (Nat.toDigits 10 n).dropWhile Char.isDigit = [] :=
      List.dropWhile_eq_nil_iff.mpr digits
    rw [readDigits, take, drop, if_neg (by simp [Nat.toDigits_ne_nil])]
  rw [readMagnitude_eq, read, Option.bind_some, if_neg]
  · rfl
  · simpa using lead_toDigits n

theorem readNumber_toDigits (n : Nat) :
    readNumber (Nat.toDigits 10 n) = some (.int n, []) := by
  obtain ⟨c, cs, digits⟩ := List.exists_cons_of_ne_nil (Nat.toDigits_ne_nil (n := n) (b := 10))
  have digit : c.isDigit = true :=
    Nat.isDigit_of_mem_toDigits (b := 10) (n := n) (by omega) (by omega)
      (by rw [digits]; exact List.mem_cons_self)
  have unsigned : readNumber (Nat.toDigits 10 n) = readMagnitude false (Nat.toDigits 10 n) := by
    rw [digits, readNumber]
    intro rest eq
    cases eq
    cases digit
  rw [unsigned, readMagnitude_toDigits, numeral, decimal_toDigits]
  rfl

theorem readNumber_toString (n : Int) : readNumber (toString n).toList = some (.int n, []) := by
  have text : toString n = if 0 ≤ n then n.toNat.repr else "-" ++ (-n).toNat.repr := Int.repr_eq_if
  rw [text]
  split
  · next nonneg =>
      rw [Nat.repr_eq_ofList_toDigits, String.toList_ofList, readNumber_toDigits,
        Int.toNat_of_nonneg nonneg]
  · next negative =>
      have magnitude : ((-n).toNat : Int) = -n := Int.toNat_of_nonneg (by omega)
      have nonzero : ((-n).toNat == 0) = false := by
        rw [beq_eq_false_iff_ne]
        omega
      have chars : ("-" ++ (-n).toNat.repr).toList = '-' :: Nat.toDigits 10 (-n).toNat := by
        simp [Nat.repr_eq_ofList_toDigits]
      rw [chars, readNumber, readMagnitude_toDigits, numeral, decimal_toDigits, nonzero]
      simp [magnitude]

end Numbers

/-! ### Values -/

/-- A value that reads back as itself: it holds no string that is no text, and its literals are
numbers with a fraction or an exponent. -/
inductive Proper : Json → Prop
  | null : Proper .null
  | bool (b : Bool) : Proper (.bool b)
  | int (n : Int) : Proper (.int n)
  | float (literal : String) (reads : readNumber literal.toList = some (.float literal, [])) :
      Proper (.float literal)
  | str (s : String) : Proper (.str s)
  | arr (items : List Json) (each : ∀ item ∈ items, Proper item) : Proper (.arr items)
  | obj (fields : List (String × Json)) (each : ∀ field ∈ fields, Proper field.2) :
      Proper (.obj fields)

/-- A text that begins like a value: not with a blank, nor with the end of a list or an object. -/
def Begins (cs : List Char) : Prop :=
  ∃ c cs', cs = c :: cs' ∧ isBlank c = false ∧ c ≠ ']' ∧ c ≠ '\x7d'

theorem Begins.append {cs : List Char} (h : Begins cs) (more : List Char) :
    Begins (cs ++ more) := by
  obtain ⟨c, cs', rfl, lead⟩ := h
  exact ⟨c, cs' ++ more, rfl, lead⟩

theorem Begins.skipBlanks {cs : List Char} (h : Begins cs) : skipBlanks cs = cs := by
  obtain ⟨c, cs', rfl, blank, -⟩ := h
  rw [Json.skipBlanks, List.dropWhile_cons_of_neg (by simp [blank])]

theorem numeric_ne {c d : Char} (h : isNumeric c = true) (other : isNumeric d = false) :
    c ≠ d := by
  rintro rfl
  cases h.symm.trans other

theorem begins_number {c : Char} (h : isNumeric c = true) (cs : List Char) :
    Begins (c :: cs) := by
  refine ⟨c, cs, rfl, ?_, numeric_ne h rfl, numeric_ne h rfl⟩
  have space : c ≠ ' ' := numeric_ne h rfl
  have tab : c ≠ '\t' := numeric_ne h rfl
  have feed : c ≠ '\n' := numeric_ne h rfl
  have back : c ≠ '\r' := numeric_ne h rfl
  simp [isBlank, space, tab, feed, back]

theorem begins_write {j : Json} (h : j.Proper) : Begins (write j) := by
  cases h with
  | null => exact ⟨'n', _, rfl, rfl, by decide, by decide⟩
  | bool b => cases b <;> exact ⟨_, _, rfl, rfl, by decide, by decide⟩
  | int n =>
      obtain ⟨c, cs, eq, lead⟩ := head_of_readNumber (readNumber_toString n)
      rw [write, eq]
      exact begins_number lead cs
  | float literal reads =>
      obtain ⟨c, cs, eq, lead⟩ := head_of_readNumber reads
      rw [write, eq]
      exact begins_number lead cs
  | str s => exact ⟨'"', _, rfl, rfl, by decide, by decide⟩
  | arr items each => exact ⟨'[', _, rfl, rfl, by decide, by decide⟩
  | obj fields each => exact ⟨'\x7b', _, rfl, rfl, by decide, by decide⟩

theorem readValue_number {c : Char} (h : isNumeric c = true) (fuel : Nat) (cs : List Char) :
    readValue (fuel + 1) (c :: cs) = readNumber (c :: cs) := by
  rw [readValue, (begins_number h cs).skipBlanks]
  split <;> first
    | next eq => exact absurd (List.cons.inj eq).1 (numeric_ne h rfl)
    | rfl

/-- A value is read from its text whatever follows, as long as there is fuel for its length. -/
def Recovers (j : Json) : Prop :=
  ∀ fuel rest, (write j).length ≤ fuel → Ends rest →
    readValue fuel (write j ++ rest) = some (j, rest)

theorem recovers_number {j : Json} (reads : readNumber (write j) = some (j, [])) : j.Recovers := by
  intro fuel rest enough ends
  obtain ⟨c, cs, eq, lead⟩ := head_of_readNumber reads
  have read := reads_number reads rest fun _ => ends
  rw [eq] at enough read ⊢
  obtain ⟨fuel, rfl⟩ : ∃ m, fuel = m + 1 := ⟨fuel - 1, by simp at enough; omega⟩
  rw [List.cons_append, readValue_number lead]
  exact read

theorem recovers_str (s : String) : (str s).Recovers := by
  intro fuel rest enough ends
  obtain ⟨fuel, rfl⟩ : ∃ m, fuel = m + 1 :=
    ⟨fuel - 1, by simp [write, writeString] at enough; omega⟩
  have text : write (.str s) ++ rest = '"' :: (s.toList.flatMap escape ++ '"' :: rest) := by
    simp [write, writeString]
  rw [text, readValue, ← readString_write s rest]
  rfl

theorem ends_of_mark {c : Char} (mark : c = ',' ∨ c = ']' ∨ c = '\x7d') (cs : List Char) :
    Ends (c :: cs) := by
  intro c' first
  cases first
  obtain rfl | rfl | rfl := mark <;> decide

theorem separated_cons {sep item item' : List Char} {items : List (List Char)} :
    separated sep (item :: item' :: items) = item ++ (sep ++ separated sep (item' :: items)) := by
  rw [separated, List.append_assoc]
  exact List.cons_ne_nil _ _

section Lists

variable {fuel : Nat} {cs more rest : List Char}

theorem readItems_last {item : Json} (read : readValue fuel cs = some (item, ']' :: rest)) :
    readItems (fuel + 1) cs = some ([item], rest) := by
  rw [readItems, read]
  rfl

theorem readItems_more {item : Json} {items : List Json}
    (read : readValue fuel cs = some (item, ',' :: more))
    (later : readItems fuel more = some (items, rest)) :
    readItems (fuel + 1) cs = some (item :: items, rest) := by
  rw [readItems, read]
  change ((readItems fuel more).bind _) = _
  rw [later]
  rfl

theorem readFields_last {name : Option String} {value : Json}
    (named : readName cs = some (name, more))
    (read : readValue fuel more = some (value, '\x7d' :: rest)) :
    readFields (fuel + 1) cs = some ([(name, value)], rest) := by
  rw [readFields, named]
  change ((readValue fuel more).bind _) = _
  rw [read]
  rfl

theorem readFields_more {name : Option String} {value : Json} {fields : List (Option String × Json)}
    {next : List Char} (named : readName cs = some (name, more))
    (read : readValue fuel more = some (value, ',' :: next))
    (later : readFields fuel next = some (fields, rest)) :
    readFields (fuel + 1) cs = some ((name, value) :: fields, rest) := by
  rw [readFields, named]
  change ((readValue fuel more).bind _) = _
  rw [read]
  change ((readFields fuel next).bind _) = _
  rw [later]
  rfl

end Lists

theorem readItems_write {item : Json} {items : List Json}
    (each : ∀ j ∈ item :: items, j.Recovers) {fuel : Nat} (rest : List Char)
    (enough : (separated [','] (writeItems (item :: items))).length < fuel) :
    readItems fuel (separated [','] (writeItems (item :: items)) ++ ']' :: rest) =
      some (item :: items, rest) := by
  obtain ⟨fuel, rfl⟩ := Nat.exists_eq_add_one_of_ne_zero (Nat.ne_zero_of_lt enough)
  -- an item uses up one unit of fuel, which the comma after it makes up for
  induction items generalizing item fuel with
  | nil =>
      exact readItems_last (each item List.mem_cons_self fuel (']' :: rest)
        (Nat.le_of_lt_succ enough) (ends_of_mark (.inr (.inl rfl)) rest))
  | cons item' items ih =>
      rw [List.forall_mem_cons] at each
      have text : separated [','] (writeItems (item :: item' :: items)) =
          write item ++ ',' :: separated [','] (writeItems (item' :: items)) :=
        separated_cons
      rw [text, List.length_append, List.length_cons] at enough
      rw [text, List.append_assoc]
      refine readItems_more (each.1 fuel _ (by omega) (ends_of_mark (.inl rfl) _)) ?_
      obtain ⟨fuel, rfl⟩ : ∃ m, fuel = m + 1 := ⟨fuel - 1, by omega⟩
      exact ih each.2 fuel (by omega)

theorem readName_write (name : String) (rest : List Char) :
    readName (writeString name ++ ':' :: rest) = some (some name, rest) := by
  have text : writeString name ++ ':' :: rest =
      '"' :: (name.toList.flatMap escape ++ '"' :: ':' :: rest) := by
    simp [writeString]
  rw [text, readName]
  change ((readPieces _).bind _) = _
  rw [readPieces_flatMap]
  change some ((joinPieces _).map _, rest) = _
  rw [joinPieces_map]
  simp

theorem readFields_write {field : String × Json} {fields : List (String × Json)}
    (each : ∀ f ∈ field :: fields, f.2.Recovers) {fuel : Nat} (rest : List Char)
    (enough : (separated [','] (writeFields (field :: fields))).length < fuel) :
    readFields fuel (separated [','] (writeFields (field :: fields)) ++ '\x7d' :: rest) =
      some ((field :: fields).map fun f => (some f.1, f.2), rest) := by
  obtain ⟨fuel, rfl⟩ := Nat.exists_eq_add_one_of_ne_zero (Nat.ne_zero_of_lt enough)
  induction fields generalizing field fuel with
  | nil =>
      obtain ⟨name, value⟩ := field
      have text : separated [','] (writeFields [(name, value)]) =
          writeString name ++ ':' :: write value :=
        rfl
      rw [text, List.length_append, List.length_cons] at enough
      rw [text, List.append_assoc, List.cons_append]
      exact readFields_last (readName_write name _)
        (each (name, value) List.mem_cons_self fuel _ (by dsimp only; omega)
          (ends_of_mark (.inr (.inr rfl)) rest))
  | cons field' fields ih =>
      obtain ⟨name, value⟩ := field
      rw [List.forall_mem_cons] at each
      have text : separated [','] (writeFields ((name, value) :: field' :: fields)) =
          (writeString name ++ ':' :: write value) ++
            ',' :: separated [','] (writeFields (field' :: fields)) :=
        separated_cons
      rw [text, List.length_append, List.length_append, List.length_cons,
        List.length_cons] at enough
      rw [text, List.append_assoc, List.append_assoc, List.cons_append]
      refine readFields_more (readName_write name _)
        (each.1 fuel _ (by dsimp only; omega) (ends_of_mark (.inl rfl) _)) ?_
      obtain ⟨fuel, rfl⟩ : ∃ m, fuel = m + 1 := ⟨fuel - 1, by omega⟩
      exact ih each.2 fuel (by omega)

theorem begins_separated {sep item : List Char} (h : Begins item) (items : List (List Char)) :
    Begins (separated sep (item :: items)) := by
  cases items with
  | nil => exact h
  | cons item' items =>
      rw [separated_cons]
      exact h.append _

theorem readValue_items {cs : List Char} (h : Begins cs) (fuel : Nat) :
    readValue (fuel + 1) ('[' :: cs) = (readItems fuel cs).map fun r => (.arr r.1, r.2) := by
  have stays : skipBlanks ('[' :: cs) = '[' :: cs := rfl
  simp only [readValue, stays, h.skipBlanks]
  obtain ⟨c, cs', rfl, -, closing, -⟩ := h
  split
  · next eq => exact absurd (List.cons.inj eq).1 closing
  · rfl

theorem readValue_fields {cs : List Char} (h : Begins cs) (fuel : Nat) :
    readValue (fuel + 1) ('\x7b' :: cs) =
      (readFields fuel cs).map fun r => (ofFields r.1, r.2) := by
  have stays : skipBlanks ('\x7b' :: cs) = '\x7b' :: cs := rfl
  simp only [readValue, stays, h.skipBlanks]
  obtain ⟨c, cs', rfl, -, -, closing⟩ := h
  split
  · next eq => exact absurd (List.cons.inj eq).1 closing
  · rfl

theorem ofFields_named (fields : List (String × Json)) :
    ofFields (fields.map fun f => (some f.1, f.2)) = .obj fields := by
  have all : (fields.map fun f => (some f.1, f.2)).mapM
      (fun (f : Option String × Json) => f.1.map (·, f.2)) = some fields := by
    induction fields with
    | nil => rfl
    | cons field fields ih =>
        rw [List.map_cons, List.mapM_cons, ih]
        rfl
  rw [ofFields, all]

theorem recovers_of_proper {j : Json} (h : j.Proper) : j.Recovers := by
  -- the parts of a list or an object are recovered one by one, so the induction is on all of them
  induction h with
  | null =>
      intro fuel rest enough ends
      obtain ⟨fuel, rfl⟩ := Nat.exists_eq_add_one_of_ne_zero (Nat.ne_zero_of_lt enough)
      rfl
  | bool b =>
      intro fuel rest enough ends
      cases b <;>
        obtain ⟨fuel, rfl⟩ := Nat.exists_eq_add_one_of_ne_zero (Nat.ne_zero_of_lt enough) <;> rfl
  | int n => exact recovers_number (readNumber_toString n)
  | float literal reads => exact recovers_number reads
  | str s => exact recovers_str s
  | arr items proper each =>
      intro fuel rest enough ends
      obtain ⟨fuel, rfl⟩ := Nat.exists_eq_add_one_of_ne_zero (Nat.ne_zero_of_lt enough)
      cases items with
      | nil => rfl
      | cons item items =>
          have begins : Begins (separated [','] (writeItems (item :: items))) :=
            begins_separated (begins_write (proper item List.mem_cons_self)) _
          have text : write (.arr (item :: items)) ++ rest =
              '[' :: (separated [','] (writeItems (item :: items)) ++ ']' :: rest) := by
            simp [write]
          simp only [write, List.length_cons, List.length_append] at enough
          rw [text, readValue_items (begins.append _), readItems_write each rest (by omega)]
          rfl
  | obj fields proper each =>
      intro fuel rest enough ends
      obtain ⟨fuel, rfl⟩ := Nat.exists_eq_add_one_of_ne_zero (Nat.ne_zero_of_lt enough)
      cases fields with
      | nil => rfl
      | cons field fields =>
          have quote : Begins (writeString field.1 ++ ':' :: write field.2) :=
            ⟨'"', _, rfl, rfl, by decide, by decide⟩
          have begins : Begins (separated [','] (writeFields (field :: fields))) :=
            begins_separated quote _
          have text : write (.obj (field :: fields)) ++ rest =
              '\x7b' :: (separated [','] (writeFields (field :: fields)) ++ '\x7d' :: rest) := by
            simp [write]
          simp only [write, List.length_cons, List.length_append] at enough
          rw [text, readValue_fields (begins.append _), readFields_write each rest (by omega)]
          exact congrArg (fun j => some (j, rest)) (ofFields_named (field :: fields))

/-- A proper value is read back from its text. -/
theorem read_compact {j : Json} (h : j.Proper) : read (compact j) = some j := by
  have recovered := recovers_of_proper h (2 * (write j).length + 2) [] (by omega)
    fun c first => by cases first
  rw [List.append_nil] at recovered
  rw [read, compact, String.toList_ofList]
  simp only [recovered]
  rfl

end ArenaPeak.Json
