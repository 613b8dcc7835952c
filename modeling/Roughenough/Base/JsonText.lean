/-
# `Roughenough.Base.JsonText` — JSON objects of texts

The one kind of JSON document that is needed here: an object whose members are
texts.  It is written as a pretty printer writes it, one member a line, and read
with white space wherever JSON allows it.

    read (pretty members) = some members          `read_pretty`

Nothing in this module is about Roughtime.
-/
import Mathlib.Data.List.Basic
import Roughenough.Base.Text

namespace Roughenough.Base.JsonText

/-! ## Strings -/

def hexDigit (n : Nat) : Char := "0123456789abcdef".toList.getD n '?'

def hexValue (c : Char) : Option Nat :=
  if c ∈ "0123456789abcdef".toList then some ("0123456789abcdef".toList.idxOf c) else none

theorem hexValue_hexDigit {n : Nat} (h : n < 16) : hexValue (hexDigit n) = some n := by
  have hall : ∀ k : Fin 16, hexValue (hexDigit k) = some k.val := by decide +kernel
  exact hall ⟨n, h⟩

/-- The characters with an escape of their own. -/
def shortEscape (c : Char) : Option Char :=
  if c = '"' then some '"' else if c = '\\' then some '\\' else if c = '\x08' then some 'b'
  else if c = '\t' then some 't' else if c = '\n' then some 'n' else if c = '\x0c' then some 'f'
  else if c = '\r' then some 'r' else none

def escape (c : Char) : List Char :=
  match shortEscape c with
  | some letter => ['\\', letter]
  | none =>
      if c.toNat < 32 then
        ['\\', 'u', '0', '0', hexDigit (c.toNat / 16), hexDigit (c.toNat % 16)]
      else [c]

def quote (text : List Char) : List Char := '"' :: (text.flatMap escape ++ ['"'])

def unescape (letter : Char) : Option Char :=
  if letter = '"' then some '"' else if letter = '\\' then some '\\'
  else if letter = 'b' then some '\x08' else if letter = 't' then some '\t'
  else if letter = 'n' then some '\n' else if letter = 'f' then some '\x0c'
  else if letter = 'r' then some '\r' else none

/-- The character in front of what was read. -/
def push (c : Char) (found : List Char × List Char) : List Char × List Char :=
  (c :: found.1, found.2)

/-- The inside of a string, up to its closing quote. -/
def readText : List Char → Option (List Char × List Char)
  | [] => none
  | '"' :: later => some ([], later)
  | '\\' :: 'u' :: '0' :: '0' :: a :: b :: later => do
      let high ← hexValue a
      let low ← hexValue b
      (readText later).map (push (Char.ofNat (16 * high + low)))
  | '\\' :: letter :: later => do
      let c ← unescape letter
      (readText later).map (push c)
  | c :: later => if c.toNat < 32 then none else (readText later).map (push c)

theorem readText_short {c letter : Char} (h : shortEscape c = some letter) (later : List Char) :
    readText ('\\' :: letter :: later) = (readText later).map (push c) := by
  unfold shortEscape at h
  -- seven characters, each with its letter, and the rest without one
  repeat' split at h
  all_goals cases h
  all_goals subst_vars
  all_goals rfl

theorem readText_escape (c : Char) (later : List Char) :
    readText (escape c ++ later) = (readText later).map (push c) := by
  unfold escape
  cases hshort : shortEscape c with
  | some letter => exact readText_short hshort later
  | none =>
      by_cases hcontrol : c.toNat < 32
      · have hvalue : 16 * (c.toNat / 16) + c.toNat % 16 = c.toNat := by omega
        simp only [if_pos hcontrol]
        show readText ('\\' :: 'u' :: '0' :: '0' :: _ :: _ :: later) = _
        rw [readText, hexValue_hexDigit (by omega), hexValue_hexDigit (by omega)]
        simp only [Option.bind_eq_bind, Option.bind_some, hvalue, Char.ofNat_toNat]
      · simp only [if_neg hcontrol]
        show readText (c :: later) = _
        have hquote : c ≠ '"' := by
          rintro rfl
          cases hshort
        have hslash : c ≠ '\\' := by
          rintro rfl
          cases hshort
        rw [readText, if_neg hcontrol]
        · exact hquote
        · intro a b later h
          exact absurd h hslash
        · intro a b h
          exact absurd h hslash

theorem readText_quote (text later : List Char) :
    readText (text.flatMap escape ++ '"' :: later) = some (text, later) := by
  induction text with
  | nil => rfl
  | cons c text ih =>
      rw [List.flatMap_cons, List.append_assoc, readText_escape, ih]
      rfl

/-! ## Objects -/

def isSpace (c : Char) : Bool := c = ' ' ∨ c = '\n' ∨ c = '\r' ∨ c = '\t'

def skipSpace (text : List Char) : List Char := text.dropWhile isSpace

/-- The next character that is no white space has to be `c`. -/
def expect (c : Char) (text : List Char) : Option (List Char) :=
  match skipSpace text with
  | [] => none
  | d :: later => if d = c then some later else none

theorem expect_cons {c : Char} (h : isSpace c = false) (later : List Char) :
    expect c (c :: later) = some later := by
  unfold expect skipSpace
  rw [List.dropWhile_cons_of_neg (by simpa using h)]
  exact if_pos rfl

theorem expect_space {c d : Char} (h : isSpace d = true) (later : List Char) :
    expect c (d :: later) = expect c later := by
  unfold expect skipSpace
  rw [List.dropWhile_cons_of_pos h]

abbrev Members := List (String × List Char)

/-- One member on a line of its own. -/
def member (m : String × List Char) : List Char :=
  ' ' :: ' ' :: (quote m.1.toList ++ ':' :: ' ' :: quote m.2)

/-- The members and the brace that closes the object. -/
def prettyMembers : Members → List Char
  | [] => ['\n', '\x7d']
  | m :: ms => member m ++ (if ms = [] then [] else [',', '\n']) ++ prettyMembers ms

def pretty (members : Members) : List Char :=
  if members = [] then ['\x7b', '\x7d'] else '\x7b' :: '\n' :: prettyMembers members

def readMember (text : List Char) : Option ((String × List Char) × List Char) := do
  let text ← expect '"' text
  let (name, text) ← readText text
  let text ← expect ':' text
  let text ← expect '"' text
  let (value, text) ← readText text
  pure ((String.ofList name, value), text)

/-- A member, and then a comma and more of them or the closing brace. -/
def readMembers : (fuel : Nat) → List Char → Option Members
  | 0, _ => none
  | fuel + 1, text => do
      let (m, text) ← readMember text
      match expect ',' text with
      | some later => (readMembers fuel later).map (m :: ·)
      | none => do
          let later ← expect '\x7d' text
          if skipSpace later = [] then some [m] else none

def read (text : List Char) : Option Members := do
  let text ← expect '\x7b' text
  match expect '\x7d' text with
  | some later => if skipSpace later = [] then some [] else none
  | none => readMembers text.length text

theorem readMember_member (m : String × List Char) (later : List Char) :
    readMember (member m ++ later) = some (m, later) := by
  have hname : ∀ later, readText (m.1.toList.flatMap escape ++ '"' :: later) =
      some (m.1.toList, later) := readText_quote _
  have hvalue : ∀ later, readText (m.2.flatMap escape ++ '"' :: later) = some (m.2, later) :=
    readText_quote _
  have hlayout : member m ++ later = ' ' :: ' ' :: '"' :: (m.1.toList.flatMap escape ++
      '"' :: ':' :: ' ' :: '"' :: (m.2.flatMap escape ++ '"' :: later)) := by
    simp only [member, quote, List.cons_append, List.append_assoc, List.nil_append]
  unfold readMember
  rw [hlayout, expect_space (by decide), expect_space (by decide), expect_cons (by decide)]
  simp only [Option.bind_eq_bind, Option.bind_some, hname]
  rw [expect_cons (by decide)]
  simp only [Option.bind_some]
  rw [expect_space (by decide), expect_cons (by decide)]
  simp only [Option.bind_some, hvalue, String.ofList_toList]
  rfl

/-- White space in front of a member is skipped. -/
theorem readMembers_space {c : Char} (h : isSpace c = true) (fuel : Nat) (text : List Char) :
    readMembers fuel (c :: text) = readMembers fuel text := by
  cases fuel with
  | zero => rfl
  | succ fuel =>
      have hmember : readMember (c :: text) = readMember text := by
        unfold readMember
        rw [expect_space h]
      rw [readMembers, readMembers, hmember]

theorem readMembers_pretty (ms : Members) : ∀ (m : String × List Char) (fuel : Nat),
    ms.length < fuel → readMembers fuel (prettyMembers (m :: ms)) = some (m :: ms) := by
  induction ms with
  | nil =>
      rintro m (_ | fuel) hfuel
      · exact absurd hfuel (Nat.not_lt_zero _)
      · rw [prettyMembers, if_pos rfl, List.append_nil, readMembers, readMember_member]
        rfl
  | cons m' ms ih =>
      rintro m (_ | fuel) hfuel
      · exact absurd hfuel (Nat.not_lt_zero _)
      · have hlater := ih m' fuel (Nat.lt_of_succ_lt_succ hfuel)
        rw [prettyMembers, if_neg (List.cons_ne_nil _ _), List.append_assoc, readMembers,
          readMember_member]
        simp only [Option.bind_eq_bind, Option.bind_some, List.cons_append, List.nil_append]
        rw [expect_cons (by decide)]
        dsimp only
        rw [readMembers_space (by decide), hlater]
        rfl

/-- Every member takes its line. -/
theorem length_le_prettyMembers (ms : Members) : ms.length ≤ (prettyMembers ms).length := by
  induction ms with
  | nil => exact Nat.zero_le _
  | cons m ms ih =>
      rw [prettyMembers, List.length_append, List.length_append, List.length_cons]
      have hmember : 0 < (member m).length := Nat.succ_pos _
      omega

theorem read_pretty (members : Members) : read (pretty members) = some members := by
  cases members with
  | nil => rfl
  | cons m ms =>
      have hfuel : ms.length < ('\n' :: prettyMembers (m :: ms)).length := by
        have := length_le_prettyMembers (m :: ms)
        rw [List.length_cons] at this ⊢
        omega
      have hopen : expect '\x7d' ('\n' :: prettyMembers (m :: ms)) = none := rfl
      unfold read pretty
      rw [if_neg (List.cons_ne_nil m ms), expect_cons (by decide)]
      simp only [Option.bind_eq_bind, Option.bind_some]
      rw [hopen]
      dsimp only
      rw [readMembers_space (by decide)]
      exact readMembers_pretty ms m _ hfuel

/-- The object as bytes, and back. -/
theorem read_utf8_pretty (members : Members) :
    (Text.fromUtf8 (Text.utf8 (pretty members))).bind read = some members := by
  rw [Text.fromUtf8_utf8]
  exact read_pretty members

example : pretty [("a", ['"']), ("b", [])] =
    "\x7b\n  \"a\": \"\\\"\",\n  \"b\": \"\"\n\x7d".toList := by
  decide +kernel

end Roughenough.Base.JsonText
