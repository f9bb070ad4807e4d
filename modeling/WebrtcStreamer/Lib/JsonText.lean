import Mathlib.Data.Nat.Digits.Lemmas
import WebrtcStreamer.Lib.Json

/-!
# `Lib.JsonText` — a concrete `Codec`

A JSON reader and writer that behave as the library's: the compact form of `dump`, its escapes, the last
of two members with one key wins, invalid UTF-8 is rejected on both sides. Numbers are kept exactly, as a
decimal mantissa and exponent, and are written that way.

The readers recurse on fuel, so that they evaluate; the length of the text is enough of it for every text
that `print` writes.

## Contents
- **Writing.** `quote`, `showNumber`, `print`.
- **Reading.** `scanString`, `scanNumber`, `parseValue`, `parse`.
- **Round trip.** `scanString_escape`, `scanNumber_showNumber`, `parseValue_print`; `text : Codec`.
-/

namespace JsonText

open Json

/-! ## Writing -/

/-- One decimal digit. -/
def digit (d : Nat) : UInt8 := UInt8.ofNat (0x30 + d)

/-- One lower-case hexadecimal digit. -/
def hexDigit (d : Nat) : UInt8 := if d < 10 then UInt8.ofNat (0x30 + d) else UInt8.ofNat (0x57 + d)

/-- One byte of a string, escaped. -/
def escapeByte (b : UInt8) : Bytes :=
  if b = 0x22 then [0x5C, 0x22]
  else if b = 0x5C then [0x5C, 0x5C]
  else if b = 0x08 then [0x5C, 0x62]
  else if b = 0x0C then [0x5C, 0x66]
  else if b = 0x0A then [0x5C, 0x6E]
  else if b = 0x0D then [0x5C, 0x72]
  else if b = 0x09 then [0x5C, 0x74]
  else if b < 0x20 then [0x5C, 0x75, 0x30, 0x30, hexDigit (b.toNat / 16), hexDigit (b.toNat % 16)]
  else [b]

def escape (s : Bytes) : Bytes := s.flatMap escapeByte

/-- A string in quotes; `none` (`type_error` 316) on invalid UTF-8. -/
def quote (s : Bytes) : Option Bytes :=
  if utf8Valid s then some (0x22 :: (escape s ++ [0x22])) else none

def showNat (n : Nat) : Bytes := if n = 0 then [0x30] else (Nat.digits 10 n).reverse.map digit

def showInt (i : Int) : Bytes := if i < 0 then 0x2D :: showNat i.natAbs else showNat i.natAbs

def showNumber (mantissa exponent : Int) : Bytes :=
  if exponent = 0 then showInt mantissa else showInt mantissa ++ 0x65 :: showInt exponent

mutual
/-- `dump()`. -/
def print : Json → Option Bytes
  | .null => some (str "null")
  | .boolean true => some (str "true")
  | .boolean false => some (str "false")
  | .number m e => some (showNumber m e)
  | .string s => quote s
  | .array [] => some (str "[]")
  | .array (x :: xs) => (printElements (x :: xs)).map (fun t => 0x5B :: t)
  | .object [] => some (str "{}")
  | .object (m :: ms) => (printMembers (m :: ms)).map (fun t => 0x7B :: t)
/-- The elements of an array and its closing bracket. -/
def printElements : List Json → Option Bytes
  | [] => none
  | [x] => (print x).map (fun t => t ++ [0x5D])
  | x :: y :: rest => do some ((← print x) ++ 0x2C :: (← printElements (y :: rest)))
/-- The members of an object and its closing brace. -/
def printMembers : List (Bytes × Json) → Option Bytes
  | [] => none
  | [(k, v)] => do some ((← quote k) ++ 0x3A :: ((← print v) ++ [0x7D]))
  | (k, v) :: m :: rest => do
      some ((← quote k) ++ 0x3A :: ((← print v) ++ 0x2C :: (← printMembers (m :: rest))))
end

/-! ## Reading -/

def isSpace (b : UInt8) : Bool := b == 0x20 || b == 0x09 || b == 0x0A || b == 0x0D

def skipSpace (s : Bytes) : Bytes := s.dropWhile isSpace

def isDigit (b : UInt8) : Bool := 0x30 ≤ b && b ≤ 0x39

def hexValue (b : UInt8) : Option Nat :=
  if 0x30 ≤ b ∧ b ≤ 0x39 then some (b.toNat - 0x30)
  else if 0x61 ≤ b ∧ b ≤ 0x66 then some (b.toNat - 0x57)
  else if 0x41 ≤ b ∧ b ≤ 0x46 then some (b.toNat - 0x37)
  else none

/-- Four hexadecimal digits. -/
def hex4 : Bytes → Option (Nat × Bytes)
  | a :: b :: c :: d :: rest => do
      some ((← hexValue a) * 4096 + (← hexValue b) * 256 + (← hexValue c) * 16 + (← hexValue d), rest)
  | _ => none

/-- The UTF-8 form of a code point. -/
def encode (c : Nat) : Bytes :=
  if c < 0x80 then [UInt8.ofNat c]
  else if c < 0x800 then [UInt8.ofNat (0xC0 + c / 64), UInt8.ofNat (0x80 + c % 64)]
  else if c < 0x10000 then
    [UInt8.ofNat (0xE0 + c / 4096), UInt8.ofNat (0x80 + c / 64 % 64), UInt8.ofNat (0x80 + c % 64)]
  else
    [UInt8.ofNat (0xF0 + c / 262144), UInt8.ofNat (0x80 + c / 4096 % 64), UInt8.ofNat (0x80 + c / 64 % 64),
      UInt8.ofNat (0x80 + c % 64)]

/-- What follows `\u`: a code point, or a pair of surrogates. -/
def scanUnicode (s : Bytes) : Option (Bytes × Bytes) := do
  let (hi, rest) ← hex4 s
  if 0xD800 ≤ hi ∧ hi ≤ 0xDBFF then
    match rest with
    | 0x5C :: 0x75 :: rest' =>
        let (lo, rest'') ← hex4 rest'
        if 0xDC00 ≤ lo ∧ lo ≤ 0xDFFF then
          some (encode (0x10000 + (hi - 0xD800) * 1024 + (lo - 0xDC00)), rest'')
        else none
    | _ => none
  else if 0xDC00 ≤ hi ∧ hi ≤ 0xDFFF then none
  else some (encode hi, rest)

/-- What follows a backslash. -/
def scanEscape : Bytes → Option (Bytes × Bytes)
  | [] => none
  | c :: rest =>
      if c = 0x22 ∨ c = 0x5C ∨ c = 0x2F then some ([c], rest)
      else if c = 0x62 then some ([0x08], rest)
      else if c = 0x66 then some ([0x0C], rest)
      else if c = 0x6E then some ([0x0A], rest)
      else if c = 0x72 then some ([0x0D], rest)
      else if c = 0x74 then some ([0x09], rest)
      else if c = 0x75 then scanUnicode rest
      else none

/-- A string after its opening quote, up to and with the closing one. -/
def scanChars : Nat → Bytes → Option (Bytes × Bytes)
  | 0, _ => none
  | _ + 1, [] => none
  | fuel + 1, c :: rest =>
      if c = 0x22 then some ([], rest)
      else if c = 0x5C then do
        let (head, rest') ← scanEscape rest
        let (tail, rest'') ← scanChars fuel rest'
        some (head ++ tail, rest'')
      else if c < 0x20 then none
      else do
        let (tail, rest') ← scanChars fuel rest
        some (c :: tail, rest')

def scanString (s : Bytes) : Option (Bytes × Bytes) := do
  let (t, rest) ← scanChars (s.length + 1) s
  if utf8Valid t then some (t, rest) else none

def readNat (ds : Bytes) : Nat := Nat.ofDigits 10 (ds.map (fun b => b.toNat - 0x30)).reverse

/-- An optional sign. -/
def scanSign : Bytes → Bool × Bytes
  | [] => (false, [])
  | c :: rest => if c = 0x2D then (true, rest) else (false, c :: rest)

def withSign (negative : Bool) (n : Nat) : Int := if negative then -n else n

/-- The digits at the front. -/
def scanDigits (s : Bytes) : Option (Bytes × Bytes) :=
  let ds := s.takeWhile isDigit
  if ds.isEmpty then none else some (ds, s.dropWhile isDigit)

/-- The part after a decimal point, if there is one. -/
def scanFraction : Bytes → Option (Bytes × Bytes)
  | [] => some ([], [])
  | c :: rest => if c = 0x2E then scanDigits rest else some ([], c :: rest)

/-- An optional sign of an exponent, which may be a plus. -/
def scanExponentSign : Bytes → Bool × Bytes
  | [] => (false, [])
  | c :: rest => if c = 0x2B then (false, rest) else scanSign (c :: rest)

/-- The part after an `e`, if there is one. -/
def scanExponent : Bytes → Option (Int × Bytes)
  | [] => some (0, [])
  | c :: rest =>
      if c = 0x65 ∨ c = 0x45 then do
        let (negative, rest₁) := scanExponentSign rest
        let (ds, rest₂) ← scanDigits rest₁
        some (withSign negative (readNat ds), rest₂)
      else some (0, c :: rest)

def scanNumber (s : Bytes) : Option (Json × Bytes) := do
  let (negative, s₁) := scanSign s
  let (ds, s₂) ← scanDigits s₁
  if 1 < ds.length ∧ ds.head? = some 0x30 then none  -- no leading zeros
  else
    let (fs, s₃) ← scanFraction s₂
    let (e, s₄) ← scanExponent s₃
    some (.number (withSign negative (readNat (ds ++ fs))) (e - fs.length), s₄)

/-- A literal, of which the first byte has been seen. -/
def scanLiteral (name : Bytes) (v : Json) (s : Bytes) : Option (Json × Bytes) :=
  if name.isPrefixOf s then some (v, s.drop name.length) else none

mutual
/-- A value at the front of the text. -/
def parseValue : Nat → Bytes → Option (Json × Bytes)
  | 0, _ => none
  | fuel + 1, s =>
      match skipSpace s with
      | [] => none
      | c :: rest =>
          if c = 0x7B then
            match skipSpace rest with
            | [] => none
            | d :: rest' => if d = 0x7D then some (.object [], rest') else parseMembers fuel [] (d :: rest')
          else if c = 0x5B then
            match skipSpace rest with
            | [] => none
            | d :: rest' => if d = 0x5D then some (.array [], rest') else parseElements fuel [] (d :: rest')
          else if c = 0x22 then (scanString rest).map (fun p => (.string p.1, p.2))
          else if c = 0x6E then scanLiteral (str "null") .null (c :: rest)
          else if c = 0x74 then scanLiteral (str "true") (.boolean true) (c :: rest)
          else if c = 0x66 then scanLiteral (str "false") (.boolean false) (c :: rest)
          else scanNumber (c :: rest)
/-- The rest of an array of which `acc` has been read. -/
def parseElements : Nat → List Json → Bytes → Option (Json × Bytes)
  | 0, _, _ => none
  | fuel + 1, acc, s => do
      let (v, rest) ← parseValue fuel s
      match skipSpace rest with
      | [] => none
      | c :: rest' =>
          if c = 0x2C then parseElements fuel (acc ++ [v]) rest'
          else if c = 0x5D then some (.array (acc ++ [v]), rest')
          else none
/-- The rest of an object of which `acc` has been read. -/
def parseMembers : Nat → List (Bytes × Json) → Bytes → Option (Json × Bytes)
  | 0, _, _ => none
  | fuel + 1, acc, s =>
      match skipSpace s with
      | [] => none
      | q :: rest =>
          if q = 0x22 then do
            let (k, rest₁) ← scanString rest
            match skipSpace rest₁ with
            | [] => none
            | c :: rest₂ =>
                if c = 0x3A then do
                  let (v, rest₃) ← parseValue fuel rest₂
                  match skipSpace rest₃ with
                  | [] => none
                  | d :: rest₄ =>
                      if d = 0x2C then parseMembers fuel (setMember k v acc) rest₄
                      else if d = 0x7D then some (.object (setMember k v acc), rest₄)
                      else none
                else none
          else none
end

/-- `parse()`: one value, with a byte order mark before it and white space around it if need be. -/
def parse (s : Bytes) : Option Json := do
  let s' := if [0xEF, 0xBB, 0xBF].isPrefixOf s then s.drop 3 else s
  let (v, rest) ← parseValue (s'.length + 1) s'
  if (skipSpace rest).isEmpty then some v else none

/-! ## What is read is well-formed -/

/-- Numbers are exact here, and all of them are represented. -/
def everyNumber (_ _ : Int) : Prop := True

/-- What every reader builds. -/
def Good (v : Json) : Prop := v.wf everyNumber ∧ v.utf8

theorem good_null : Good .null := ⟨trivial, trivial⟩

theorem good_boolean (b : Bool) : Good (.boolean b) := ⟨trivial, trivial⟩

theorem good_number (m e : Int) : Good (.number m e) := ⟨trivial, trivial⟩

theorem good_array_nil : Good (.array []) := ⟨trivial, trivial⟩

theorem good_object_nil : Good (.object []) := ⟨⟨by simp, trivial⟩, trivial⟩

theorem good_scanLiteral {name s rest : Bytes} {v w : Json} (hv : Good v)
    (h : scanLiteral name v s = some (w, rest)) : Good w := by
  unfold scanLiteral at h
  split at h
  · obtain ⟨rfl, -⟩ := Prod.mk.inj (Option.some.inj h)
    exact hv
  · exact absurd h (by simp)

theorem good_scanNumber {s rest : Bytes} {v : Json} (h : scanNumber s = some (v, rest)) : Good v := by
  unfold scanNumber at h
  obtain ⟨⟨ds, s₂⟩, -, h⟩ := Option.bind_eq_some_iff.mp h
  simp only at h
  split at h
  · exact absurd h (by simp)
  · obtain ⟨⟨fs, s₃⟩, -, h⟩ := Option.bind_eq_some_iff.mp h
    obtain ⟨⟨e, s₄⟩, -, h⟩ := Option.bind_eq_some_iff.mp h
    obtain ⟨rfl, -⟩ := Prod.mk.inj (Option.some.inj h)
    exact good_number _ _

theorem utf8_scanString {s t rest : Bytes} (h : scanString s = some (t, rest)) : utf8Valid t = true := by
  unfold scanString at h
  obtain ⟨⟨t', rest'⟩, -, h⟩ := Option.bind_eq_some_iff.mp h
  simp only at h
  split at h
  · rename_i hv
    obtain ⟨rfl, -⟩ := Prod.mk.inj (Option.some.inj h)
    exact hv
  · exact absurd h (by simp)

theorem good_array_append {acc : List Json} {v : Json} (ha : Good (.array acc)) (hv : Good v) :
    Good (.array (acc ++ [v])) := by
  obtain ⟨hw, hu⟩ := ha
  simp only [wf, utf8] at hw hu
  simp only [Good, wf, utf8]
  induction acc with
  | nil => exact ⟨⟨hv.1, trivial⟩, ⟨hv.2, trivial⟩⟩
  | cons x xs ih =>
      obtain ⟨ihw, ihu⟩ := ih hw.2 hu.2
      exact ⟨⟨hw.1, ihw⟩, ⟨hu.1, ihu⟩⟩

theorem good_object_setMember {acc : List (Bytes × Json)} {k : Bytes} {v : Json}
    (ha : Good (.object acc)) (hk : utf8Valid k = true) (hv : Good v) :
    Good (.object (setMember k v acc)) :=
  ⟨⟨sorted_setMember ha.1.1, wfMembers_setMember hv.1 ha.1.2⟩, utf8Members_setMember hk hv.2 ha.2⟩

/-- **The readers build well-formed values.** By induction on the fuel, for all three at once. -/
theorem good_parseValue (fuel : Nat) :
    (∀ s v rest, parseValue fuel s = some (v, rest) → Good v) ∧
    (∀ acc s v rest, Good (.array acc) → parseElements fuel acc s = some (v, rest) → Good v) ∧
    (∀ acc s v rest, Good (.object acc) → parseMembers fuel acc s = some (v, rest) → Good v) := by
  induction fuel with
  | zero => refine ⟨?_, ?_, ?_⟩ <;> intros <;> simp_all [parseValue, parseElements, parseMembers]
  | succ fuel ih =>
      obtain ⟨ihv, ihe, ihm⟩ := ih
      refine ⟨fun s v rest h => ?_, fun acc s v rest ha h => ?_, fun acc s v rest ha h => ?_⟩
      · unfold parseValue at h
        split at h
        · exact absurd h (by simp)
        rename_i c rest' _
        split at h
        · split at h
          · exact absurd h (by simp)
          split at h
          · obtain ⟨rfl, -⟩ := Prod.mk.inj (Option.some.inj h)
            exact good_object_nil
          · exact ihm _ _ _ _ good_object_nil h
        split at h
        · split at h
          · exact absurd h (by simp)
          split at h
          · obtain ⟨rfl, -⟩ := Prod.mk.inj (Option.some.inj h)
            exact good_array_nil
          · exact ihe _ _ _ _ good_array_nil h
        split at h
        · obtain ⟨⟨t, r⟩, hs, h⟩ := Option.map_eq_some_iff.mp h
          obtain ⟨rfl, -⟩ := Prod.mk.inj h
          exact ⟨trivial, utf8_scanString hs⟩
        split at h
        · exact good_scanLiteral good_null h
        split at h
        · exact good_scanLiteral (good_boolean true) h
        split at h
        · exact good_scanLiteral (good_boolean false) h
        · exact good_scanNumber h
      · unfold parseElements at h
        obtain ⟨⟨w, r⟩, hw, h⟩ := Option.bind_eq_some_iff.mp h
        have hacc : Good (.array (acc ++ [w])) := good_array_append ha (ihv _ _ _ hw)
        simp only at h
        split at h
        · exact absurd h (by simp)
        split at h
        · exact ihe _ _ _ _ hacc h
        split at h
        · obtain ⟨rfl, -⟩ := Prod.mk.inj (Option.some.inj h)
          exact hacc
        · exact absurd h (by simp)
      · unfold parseMembers at h
        split at h
        · exact absurd h (by simp)
        split at h
        · obtain ⟨⟨k, r₁⟩, hk, h⟩ := Option.bind_eq_some_iff.mp h
          simp only at h
          split at h
          · exact absurd h (by simp)
          split at h
          · obtain ⟨⟨w, r₃⟩, hw, h⟩ := Option.bind_eq_some_iff.mp h
            have hacc : Good (.object (setMember k w acc)) :=
              good_object_setMember ha (utf8_scanString hk) (ihv _ _ _ hw)
            simp only at h
            split at h
            · exact absurd h (by simp)
            split at h
            · exact ihm _ _ _ _ hacc h
            split at h
            · obtain ⟨rfl, -⟩ := Prod.mk.inj (Option.some.inj h)
              exact hacc
            · exact absurd h (by simp)
          · exact absurd h (by simp)
        · exact absurd h (by simp)

theorem good_parse {s : Bytes} {v : Json} (h : parse s = some v) : Good v := by
  unfold parse at h
  obtain ⟨⟨w, rest⟩, hw, h⟩ := Option.bind_eq_some_iff.mp h
  simp only at h
  split at h
  · exact Option.some.inj h ▸ (good_parseValue _).1 _ _ _ hw
  · exact absurd h (by simp)

/-! ## What can be written -/

theorem quote_eq_some {s t : Bytes} :
    quote s = some t ↔ utf8Valid s = true ∧ t = 0x22 :: (escape s ++ [0x22]) := by
  unfold quote
  split
  · rename_i h
    simp [h, eq_comm]
  · rename_i h
    simp [h]

theorem quote_isSome {s : Bytes} : (quote s).isSome ↔ utf8Valid s = true := by
  unfold quote
  split <;> simp_all

mutual
theorem print_isSome : ∀ v : Json, (print v).isSome ↔ v.utf8
  | .null | .boolean true | .boolean false | .number _ _ | .array [] | .object [] => by
      simp [print, utf8, utf8Elements, utf8Members]
  | .string s => by
      rw [print, quote_isSome, utf8]
  | .array (x :: xs) => by
      rw [print, Option.isSome_map, printElements_isSome (x :: xs) (by simp), utf8]
  | .object (m :: ms) => by
      rw [print, Option.isSome_map, printMembers_isSome (m :: ms) (by simp), utf8]
theorem printElements_isSome : ∀ xs : List Json, xs ≠ [] → ((printElements xs).isSome ↔ utf8Elements xs)
  | [], h => absurd rfl h
  | [x], _ => by
      rw [printElements, Option.isSome_map, print_isSome x]
      simp [utf8Elements]
  | x :: y :: rest, _ => by
      rw [utf8Elements, ← print_isSome x, ← printElements_isSome (y :: rest) (by simp), printElements]
      cases print x <;> cases printElements (y :: rest) <;> simp
theorem printMembers_isSome : ∀ ms : List (Bytes × Json), ms ≠ [] →
    ((printMembers ms).isSome ↔ utf8Members ms)
  | [], h => absurd rfl h
  | [(k, v)], _ => by
      rw [utf8Members, utf8Members, ← quote_isSome, ← print_isSome v, printMembers]
      cases quote k <;> cases print v <;> simp
  | (k, v) :: m :: rest, _ => by
      rw [utf8Members, ← quote_isSome, ← print_isSome v, ← printMembers_isSome (m :: rest) (by simp),
        printMembers]
      cases quote k <;> cases print v <;> cases printMembers (m :: rest) <;> simp
end

/-! ## Round trip: strings -/

theorem hexValue_hexDigit : ∀ d, d < 16 → hexValue (hexDigit d) = some d := by decide

theorem hex4_hexDigit {n : Nat} (h : n < 256) (rest : Bytes) :
    hex4 (0x30 :: 0x30 :: hexDigit (n / 16) :: hexDigit (n % 16) :: rest) = some (n, rest) := by
  have hhi := hexValue_hexDigit (n / 16) (by omega)
  have hlo := hexValue_hexDigit (n % 16) (by omega)
  have h0 : hexValue 0x30 = some 0 := by decide
  simp only [hex4, hhi, hlo, h0, Option.bind_eq_bind, Option.bind_some]
  congr 2
  omega

theorem scanEscape_control {b : UInt8} (hb : b < 0x20) (rest : Bytes) :
    scanEscape (0x75 :: 0x30 :: 0x30 :: hexDigit (b.toNat / 16) :: hexDigit (b.toNat % 16) :: rest) =
      some ([b], rest) := by
  have hn : b.toNat < 32 := hb
  have hx := hex4_hexDigit (show b.toNat < 256 by omega) rest
  have hhi : ¬ (0xD800 ≤ b.toNat ∧ b.toNat ≤ 0xDBFF) := by omega
  have hlo : ¬ (0xDC00 ≤ b.toNat ∧ b.toNat ≤ 0xDFFF) := by omega
  have henc : encode b.toNat = [b] := by
    rw [encode, if_pos (by omega), UInt8.ofNat_toNat]
  show scanUnicode _ = _
  rw [scanUnicode, hx]
  show (if _ then _ else _) = _
  rw [if_neg hhi, if_neg hlo, henc]

/-- One byte of a string: whatever its escape, it is read back as that byte. -/
theorem scanChars_escapeByte (b : UInt8) (fuel : Nat) (rest : Bytes) :
    scanChars (fuel + 1) (escapeByte b ++ rest) = (scanChars fuel rest).map (fun p => (b :: p.1, p.2)) := by
  have hesc : ∀ {e : Bytes}, scanEscape (e ++ rest) = some ([b], rest) →
      scanChars (fuel + 1) (0x5C :: e ++ rest) = (scanChars fuel rest).map (fun p => (b :: p.1, p.2)) := by
    intro e he
    rw [List.cons_append, scanChars, if_neg (by decide), if_pos rfl, he]
    show (scanChars fuel rest).bind _ = _
    cases scanChars fuel rest <;> rfl
  unfold escapeByte
  split
  · rename_i h; subst h; exact hesc rfl
  split
  · rename_i h; subst h; exact hesc rfl
  split
  · rename_i h; subst h; exact hesc rfl
  split
  · rename_i h; subst h; exact hesc rfl
  split
  · rename_i h; subst h; exact hesc rfl
  split
  · rename_i h; subst h; exact hesc rfl
  split
  · rename_i h; subst h; exact hesc rfl
  split
  · rename_i h; exact hesc (scanEscape_control h rest)
  · rename_i hq hbs _ _ _ _ _ hc
    rw [List.singleton_append, scanChars, if_neg hq, if_neg hbs, if_neg hc]
    cases scanChars fuel rest <;> rfl

theorem escapeByte_length_pos (b : UInt8) : 0 < (escapeByte b).length := by
  unfold escapeByte
  repeat' split
  all_goals simp

theorem scanChars_escape (s rest : Bytes) :
    ∀ fuel, s.length < fuel → scanChars fuel (escape s ++ 0x22 :: rest) = some (s, rest) := by
  induction s with
  | nil =>
      intro fuel hf
      obtain ⟨n, rfl⟩ := Nat.exists_eq_succ_of_ne_zero (by omega : fuel ≠ 0)
      rfl
  | cons b s ih =>
      intro fuel hf
      rw [List.length_cons] at hf
      obtain ⟨n, rfl⟩ := Nat.exists_eq_succ_of_ne_zero (by omega : fuel ≠ 0)
      have htail := ih n (by omega)
      rw [escape, List.flatMap_cons, List.append_assoc, Nat.succ_eq_add_one, scanChars_escapeByte]
      rw [escape] at htail
      rw [htail]
      rfl

theorem length_le_escape (s : Bytes) : s.length ≤ (escape s).length := by
  induction s with
  | nil => exact Nat.zero_le _
  | cons b s ih =>
      have := escapeByte_length_pos b
      rw [escape] at ih
      rw [escape, List.flatMap_cons, List.length_append, List.length_cons]
      omega

theorem scanString_escape {s : Bytes} (hs : utf8Valid s = true) (rest : Bytes) :
    scanString (escape s ++ 0x22 :: rest) = some (s, rest) := by
  have hlen := length_le_escape s
  have hfuel : s.length < (escape s ++ 0x22 :: rest).length + 1 := by
    rw [List.length_append]
    omega
  rw [scanString, scanChars_escape s rest _ hfuel]
  show (if utf8Valid s = true then _ else _) = _
  rw [if_pos hs]

/-! ## Round trip: numbers -/

/-- What may follow a number: nothing that would continue it. -/
def Follow (rest : Bytes) : Prop :=
  ∀ c ∈ rest.head?, isDigit c = false ∧ c ≠ 0x2E ∧ c ≠ 0x65 ∧ c ≠ 0x45

theorem isDigit_digit : ∀ d, d < 10 → isDigit (digit d) = true := by decide

theorem digit_value : ∀ d, d < 10 → (digit d).toNat - 0x30 = d := by decide

theorem digit_eq_zero : ∀ d, d < 10 → digit d = 0x30 → d = 0 := by decide

theorem isDigit_showNat {n : Nat} {c : UInt8} (h : c ∈ showNat n) : isDigit c = true := by
  unfold showNat at h
  split at h
  · rw [List.mem_singleton.mp h]
    decide
  · obtain ⟨d, hd, rfl⟩ := List.mem_map.mp h
    exact isDigit_digit d (Nat.digits_lt_base (by decide) (List.mem_reverse.mp hd))

theorem showNat_ne_nil (n : Nat) : showNat n ≠ [] := by
  unfold showNat
  split
  · simp
  · rename_i h
    simpa [Nat.digits_eq_nil_iff_eq_zero] using h

theorem readNat_showNat (n : Nat) : readNat (showNat n) = n := by
  unfold showNat
  split
  · rename_i h
    subst h
    rfl
  · have hvalue : ∀ ds : List Nat, (∀ d ∈ ds, d < 10) →
        (ds.map digit).map (fun b => b.toNat - 0x30) = ds := by
      intro ds hds
      rw [List.map_map]
      exact (List.map_congr_left fun d hd => digit_value d (hds d hd)).trans (List.map_id ds)
    rw [readNat, hvalue, List.reverse_reverse, Nat.ofDigits_digits]
    intro d hd
    exact Nat.digits_lt_base (by decide) (List.mem_reverse.mp hd)

/-- A numeral of several digits does not start with a zero. -/
theorem showNat_head (n : Nat) : ¬ (1 < (showNat n).length ∧ (showNat n).head? = some 0x30) := by
  rintro ⟨hlen, hhead⟩
  unfold showNat at hlen hhead
  split at hhead
  · rename_i h
    rw [if_pos h] at hlen
    exact absurd hlen (by decide)
  · rename_i h
    have hne : Nat.digits 10 n ≠ [] := Nat.digits_ne_nil_iff_ne_zero.mpr h
    rw [List.head?_map, List.head?_reverse, List.getLast?_eq_some_getLast hne, Option.map_some] at hhead
    have hlast := Nat.getLast_digit_ne_zero 10 h
    have hlt := Nat.digits_lt_base (by decide : 1 < 10) (List.getLast_mem hne)
    exact hlast (digit_eq_zero _ hlt (Option.some.inj hhead))

theorem scanDigits_showNat (n : Nat) {rest : Bytes} (h : ∀ c ∈ rest.head?, isDigit c = false) :
    scanDigits (showNat n ++ rest) = some (showNat n, rest) := by
  have hall : ∀ c ∈ showNat n, isDigit c = true := fun c hc => isDigit_showNat hc
  have htake : (showNat n ++ rest).takeWhile isDigit = showNat n := by
    rw [List.takeWhile_append_of_pos hall]
    cases rest with
    | nil => simp
    | cons c rest => simp [h c rfl]
  have hdrop : (showNat n ++ rest).dropWhile isDigit = rest := by
    rw [List.dropWhile_append_of_pos hall]
    cases rest with
    | nil => rfl
    | cons c rest => simp [h c rfl]
  rw [scanDigits, htake, hdrop]
  exact if_neg (by simpa using showNat_ne_nil n)

theorem showNat_cons (n : Nat) : ∃ c t, showNat n = c :: t ∧ isDigit c = true := by
  cases h : showNat n with
  | nil => exact absurd h (showNat_ne_nil n)
  | cons c t => exact ⟨c, t, rfl, isDigit_showNat (n := n) (h ▸ List.mem_cons_self)⟩

theorem not_isDigit_minus : isDigit 0x2D = false := by decide

theorem scanSign_showInt (i : Int) (rest : Bytes) :
    scanSign (showInt i ++ rest) = (decide (i < 0), showNat i.natAbs ++ rest) := by
  unfold showInt
  split
  · rename_i h
    rw [decide_eq_true h]
    rfl
  · rename_i h
    obtain ⟨c, t, hc, hd⟩ := showNat_cons i.natAbs
    rw [decide_eq_false h, hc, List.cons_append, scanSign]
    refine if_neg ?_
    rintro rfl
    rw [not_isDigit_minus] at hd
    exact absurd hd (by decide)

theorem withSign_natAbs (i : Int) : withSign (decide (i < 0)) i.natAbs = i := by
  unfold withSign
  split
  · rename_i h
    have := of_decide_eq_true h
    omega
  · rename_i h
    have : ¬ i < 0 := fun hi => h (decide_eq_true hi)
    omega

theorem scanFraction_none {rest : Bytes} (h : ∀ c ∈ rest.head?, c ≠ 0x2E) :
    scanFraction rest = some ([], rest) := by
  cases rest with
  | nil => rfl
  | cons c rest => exact if_neg (h c rfl)

theorem scanExponent_none {rest : Bytes} (h : ∀ c ∈ rest.head?, c ≠ 0x65 ∧ c ≠ 0x45) :
    scanExponent rest = some (0, rest) := by
  cases rest with
  | nil => rfl
  | cons c rest =>
      obtain ⟨hlow, hup⟩ := h c rfl
      exact if_neg (by rintro (h | h) <;> contradiction)

theorem scanExponentSign_showInt (e : Int) (rest : Bytes) :
    scanExponentSign (showInt e ++ rest) = (decide (e < 0), showNat e.natAbs ++ rest) := by
  have hhead : ∃ c t, showInt e = c :: t ∧ c ≠ 0x2B := by
    unfold showInt
    split
    · exact ⟨0x2D, _, rfl, by decide⟩
    · obtain ⟨c, t, hc, hd⟩ := showNat_cons e.natAbs
      refine ⟨c, t, hc, ?_⟩
      rintro rfl
      exact absurd hd (by decide)
  obtain ⟨c, t, hc, hne⟩ := hhead
  rw [← scanSign_showInt, hc]
  exact if_neg hne

theorem scanExponent_showInt (e : Int) {rest : Bytes} (h : Follow rest) :
    scanExponent (0x65 :: (showInt e ++ rest)) = some (e, rest) := by
  rw [scanExponent, if_pos (.inl rfl), scanExponentSign_showInt]
  show (scanDigits (showNat e.natAbs ++ rest)).bind _ = _
  rw [scanDigits_showNat _ (fun c hc => (h c hc).1)]
  show some (withSign _ (readNat (showNat e.natAbs)), rest) = _
  rw [readNat_showNat, withSign_natAbs]

theorem scanNumber_showNumber (m e : Int) {rest : Bytes} (h : Follow rest) :
    scanNumber (showNumber m e ++ rest) = some (.number m e, rest) := by
  -- what follows the mantissa: the exponent, or nothing of the number
  have hshape : ∃ tail, showNumber m e ++ rest = showInt m ++ tail ∧
      (∀ c ∈ tail.head?, isDigit c = false ∧ c ≠ 0x2E) ∧ scanExponent tail = some (e, rest) := by
    unfold showNumber
    by_cases he : e = 0
    · rw [if_pos he, he]
      exact ⟨rest, rfl, fun c hc => ⟨(h c hc).1, (h c hc).2.1⟩, scanExponent_none fun c hc => (h c hc).2.2⟩
    · rw [if_neg he]
      refine ⟨0x65 :: (showInt e ++ rest), by rw [List.append_assoc, List.cons_append], ?_,
        scanExponent_showInt e h⟩
      intro c hc
      obtain rfl := Option.some.inj hc
      decide
  obtain ⟨tail, heq, htail, hexp⟩ := hshape
  rw [heq, scanNumber, scanSign_showInt]
  show (scanDigits (showNat m.natAbs ++ tail)).bind _ = _
  rw [scanDigits_showNat _ (fun c hc => (htail c hc).1), Option.bind_some]
  show (if _ then _ else _) = _
  rw [if_neg (showNat_head _), scanFraction_none (fun c hc => (htail c hc).2)]
  show (scanExponent tail).bind _ = _
  rw [hexp, Option.bind_some]
  show some (Json.number (withSign _ (readNat (showNat m.natAbs ++ []))) (e - (0 : Nat)), rest) = _
  rw [List.append_nil, readNat_showNat, withSign_natAbs]
  simp

/-! ## Round trip: values -/

theorem skipSpace_cons {c : UInt8} (h : isSpace c = false) (t : Bytes) : skipSpace (c :: t) = c :: t := by
  rw [skipSpace, List.dropWhile_cons, h]
  rfl

theorem follow_cons {c : UInt8} (h : c = 0x2C ∨ c = 0x5D ∨ c = 0x7D) (rest : Bytes) : Follow (c :: rest) := by
  intro d hd
  obtain rfl := Option.some.inj hd
  rcases h with rfl | rfl | rfl <;> decide

/-- The first byte of a number's text. -/
theorem showNumber_cons (m e : Int) :
    ∃ c t, showNumber m e = c :: t ∧ (c = 0x2D ∨ isDigit c = true) := by
  have hint : ∃ c t, showInt m = c :: t ∧ (c = 0x2D ∨ isDigit c = true) := by
    unfold showInt
    split
    · exact ⟨0x2D, _, rfl, .inl rfl⟩
    · obtain ⟨c, t, hc, hd⟩ := showNat_cons m.natAbs
      exact ⟨c, t, hc, .inr hd⟩
  obtain ⟨c, t, hc, hd⟩ := hint
  unfold showNumber
  split
  · exact ⟨c, t, hc, hd⟩
  · exact ⟨c, _, by rw [hc, List.cons_append], hd⟩

/-- A byte that starts a value: no white space, no closing bracket, no byte order mark. -/
def Starts (c : UInt8) : Prop := isSpace c = false ∧ c ≠ 0x5D ∧ c ≠ 0xEF

theorem starts_of_number {c : UInt8} (h : c = 0x2D ∨ isDigit c = true) :
    Starts c ∧ c ≠ 0x7B ∧ c ≠ 0x5B ∧ c ≠ 0x22 ∧ c ≠ 0x6E ∧ c ≠ 0x74 ∧ c ≠ 0x66 := by
  have hall : ∀ n, n < 256 → (UInt8.ofNat n = 0x2D ∨ isDigit (UInt8.ofNat n) = true) →
      (isSpace (UInt8.ofNat n) = false ∧ UInt8.ofNat n ≠ 0x5D ∧ UInt8.ofNat n ≠ 0xEF) ∧
        UInt8.ofNat n ≠ 0x7B ∧ UInt8.ofNat n ≠ 0x5B ∧ UInt8.ofNat n ≠ 0x22 ∧ UInt8.ofNat n ≠ 0x6E ∧
        UInt8.ofNat n ≠ 0x74 ∧
        UInt8.ofNat n ≠ 0x66 := by
    decide +kernel
  have hc := hall c.toNat (UInt8.toNat_lt c)
  rw [UInt8.ofNat_toNat] at hc
  exact hc h

theorem print_cons {v : Json} {s : Bytes} (h : print v = some s) : ∃ c t, s = c :: t ∧ Starts c := by
  have hlit : ∀ {b : Bytes}, some b = some s → (∃ c t, b = c :: t ∧ Starts c) →
      ∃ c t, s = c :: t ∧ Starts c := by
    intro b hb hc
    exact Option.some.inj hb ▸ hc
  match v, h with
  | .null, h => exact hlit h ⟨_, _, rfl, by unfold Starts; decide⟩
  | .boolean true, h => exact hlit h ⟨_, _, rfl, by unfold Starts; decide⟩
  | .boolean false, h => exact hlit h ⟨_, _, rfl, by unfold Starts; decide⟩
  | .number m e, h =>
      obtain ⟨c, t, hc, hd⟩ := showNumber_cons m e
      exact hlit (by rw [← h, print]) ⟨c, t, hc, (starts_of_number hd).1⟩
  | .string k, h =>
      rw [print, quote_eq_some] at h
      exact ⟨_, _, h.2, by unfold Starts; decide⟩
  | .array [], h => exact hlit h ⟨_, _, rfl, by unfold Starts; decide⟩
  | .object [], h => exact hlit h ⟨_, _, rfl, by unfold Starts; decide⟩
  | .array (x :: xs), h =>
      rw [print, Option.map_eq_some_iff] at h
      obtain ⟨t, -, rfl⟩ := h
      exact ⟨_, _, rfl, by unfold Starts; decide⟩
  | .object (m :: ms), h =>
      rw [print, Option.map_eq_some_iff] at h
      obtain ⟨t, -, rfl⟩ := h
      exact ⟨_, _, rfl, by unfold Starts; decide⟩

theorem printElements_cons {x : Json} {xs : List Json} {s : Bytes}
    (h : printElements (x :: xs) = some s) : ∃ c t, s = c :: t ∧ Starts c := by
  cases xs with
  | nil =>
      rw [printElements, Option.map_eq_some_iff] at h
      obtain ⟨u, hu, rfl⟩ := h
      obtain ⟨c, t, rfl, hc⟩ := print_cons hu
      exact ⟨c, _, List.cons_append, hc⟩
  | cons y rest =>
      rw [printElements] at h
      obtain ⟨u, hu, h⟩ := Option.bind_eq_some_iff.mp h
      obtain ⟨w, -, h⟩ := Option.bind_eq_some_iff.mp h
      obtain ⟨c, t, rfl, hc⟩ := print_cons hu
      exact ⟨c, _, (Option.some.inj h).symm.trans List.cons_append, hc⟩

theorem printMembers_cons {m : Bytes × Json} {ms : List (Bytes × Json)} {s : Bytes}
    (h : printMembers (m :: ms) = some s) : ∃ t, s = 0x22 :: t := by
  obtain ⟨k, v⟩ := m
  cases ms with
  | nil =>
      rw [printMembers] at h
      obtain ⟨q, hq, h⟩ := Option.bind_eq_some_iff.mp h
      obtain ⟨u, -, h⟩ := Option.bind_eq_some_iff.mp h
      obtain ⟨-, rfl⟩ := quote_eq_some.mp hq
      exact ⟨_, (Option.some.inj h).symm⟩
  | cons m rest =>
      rw [printMembers] at h
      obtain ⟨q, hq, h⟩ := Option.bind_eq_some_iff.mp h
      obtain ⟨u, -, h⟩ := Option.bind_eq_some_iff.mp h
      obtain ⟨w, -, h⟩ := Option.bind_eq_some_iff.mp h
      obtain ⟨-, rfl⟩ := quote_eq_some.mp hq
      exact ⟨_, (Option.some.inj h).symm⟩

/-- A key above all others goes to the end. -/
theorem setMember_append {k : Bytes} {v : Json} {acc : List (Bytes × Json)}
    (h : ∀ k' ∈ acc.map Prod.fst, k' < k) : setMember k v acc = acc ++ [(k, v)] := by
  induction acc with
  | nil => rfl
  | cons m rest ih =>
      obtain ⟨k', w⟩ := m
      have hk : k' < k := h k' (by simp)
      have hne : k' ≠ k := fun he => List.lt_irrefl k (he ▸ hk)
      have hge : ¬ k < k' := fun hlt => List.lt_irrefl k (List.lt_trans hlt hk)
      rw [setMember, if_neg hne, if_neg hge, ih (fun k'' hk'' => h k'' (List.mem_cons_of_mem _ hk''))]
      rfl

theorem scanLiteral_self (name : Bytes) (v : Json) (rest : Bytes) :
    scanLiteral name v (name ++ rest) = some (v, rest) := by
  rw [scanLiteral, if_pos (by simp), List.drop_left]

mutual
/-- **Round trip of a value**, with anything behind it that does not continue a number. -/
theorem parseValue_print : ∀ (v : Json) {s : Bytes}, v.wf everyNumber → print v = some s →
    ∀ (fuel : Nat) (rest : Bytes), s.length < fuel → Follow rest →
      parseValue fuel (s ++ rest) = some (v, rest)
  | v, _, _, _, 0, _, hf, _ => absurd hf (Nat.not_lt_zero _)
  | .null, s, _, h, fuel + 1, rest, _, _ => by
      obtain rfl := Option.some.inj h
      exact scanLiteral_self (str "null") .null rest
  | .boolean true, s, _, h, fuel + 1, rest, _, _ => by
      obtain rfl := Option.some.inj h
      exact scanLiteral_self (str "true") (.boolean true) rest
  | .boolean false, s, _, h, fuel + 1, rest, _, _ => by
      obtain rfl := Option.some.inj h
      exact scanLiteral_self (str "false") (.boolean false) rest
  | .number m e, s, _, h, fuel + 1, rest, _, hr => by
      rw [print] at h
      obtain rfl := Option.some.inj h
      have hscan := scanNumber_showNumber m e hr
      obtain ⟨c, t, hc, hd⟩ := showNumber_cons m e
      obtain ⟨⟨hsp, -⟩, h1, h2, h3, h4, h5, h6⟩ := starts_of_number hd
      rw [hc, List.cons_append] at hscan ⊢
      rw [parseValue, skipSpace_cons hsp]
      show (if _ then _ else _) = _
      rw [if_neg h1, if_neg h2, if_neg h3, if_neg h4, if_neg h5, if_neg h6]
      exact hscan
  | .string k, s, _, h, fuel + 1, rest, _, _ => by
      rw [print, quote_eq_some] at h
      obtain ⟨hk, rfl⟩ := h
      have hscan := scanString_escape hk rest
      rw [List.cons_append, List.append_assoc, parseValue, skipSpace_cons (by decide)]
      show (scanString (escape k ++ 0x22 :: rest)).map _ = _
      rw [hscan]
      rfl
  | .array [], s, _, h, fuel + 1, rest, _, _ => by
      obtain rfl := Option.some.inj h
      rfl
  | .object [], s, _, h, fuel + 1, rest, _, _ => by
      obtain rfl := Option.some.inj h
      rfl
  | .array (x :: xs), s, hw, h, fuel + 1, rest, hf, _ => by
      rw [print, Option.map_eq_some_iff] at h
      obtain ⟨t, ht, rfl⟩ := h
      have hread := parseElements_print (x :: xs) (by simp) hw ht fuel rest []
        (by rw [List.length_cons] at hf; omega)
      obtain ⟨c, t', rfl, hsp, hne, -⟩ := printElements_cons ht
      rw [List.cons_append, parseValue, skipSpace_cons (by decide)]
      show (match skipSpace (c :: (t' ++ rest)) with | [] => none | d :: rest' => _) = _
      rw [skipSpace_cons hsp]
      show (if c = 0x5D then _ else _) = _
      rw [if_neg hne]
      exact hread
  | .object (m :: ms), s, hw, h, fuel + 1, rest, hf, _ => by
      rw [print, Option.map_eq_some_iff] at h
      obtain ⟨t, ht, rfl⟩ := h
      have hread := parseMembers_print (m :: ms) (by simp) hw.2 hw.1 ht fuel rest []
        (by rw [List.length_cons] at hf; omega) (by simp)
      obtain ⟨t', rfl⟩ := printMembers_cons ht
      rw [List.cons_append, parseValue, skipSpace_cons (by decide)]
      exact hread
theorem parseElements_print : ∀ (xs : List Json) {s : Bytes}, xs ≠ [] → wfElements everyNumber xs →
    printElements xs = some s → ∀ (fuel : Nat) (rest : Bytes) (acc : List Json), s.length < fuel →
      parseElements fuel acc (s ++ rest) = some (.array (acc ++ xs), rest)
  | xs, _, _, _, _, 0, _, _, hf => absurd hf (Nat.not_lt_zero _)
  | [], _, hne, _, _, _, _, _, _ => absurd rfl hne
  | [x], s, _, hw, h, fuel + 1, rest, acc, hf => by
      rw [printElements, Option.map_eq_some_iff] at h
      obtain ⟨u, hu, rfl⟩ := h
      have hx := parseValue_print x hw.1 hu fuel (0x5D :: rest)
        (by rw [List.length_append, List.length_singleton] at hf; omega) (follow_cons (by decide) _)
      rw [List.append_assoc, List.singleton_append, parseElements, hx]
      rfl
  | x :: y :: ys, s, _, hw, h, fuel + 1, rest, acc, hf => by
      rw [printElements] at h
      obtain ⟨u, hu, h⟩ := Option.bind_eq_some_iff.mp h
      obtain ⟨t, ht, h⟩ := Option.bind_eq_some_iff.mp h
      obtain rfl := Option.some.inj h
      rw [List.length_append, List.length_cons] at hf
      have hx := parseValue_print x hw.1 hu fuel (0x2C :: (t ++ rest)) (by omega)
        (follow_cons (by decide) _)
      have hrest := parseElements_print (y :: ys) (by simp) hw.2 ht fuel rest
        (acc ++ [x]) (by omega)
      rw [List.append_assoc, List.cons_append, parseElements, hx]
      show parseElements fuel (acc ++ [x]) (t ++ rest) = _
      rw [hrest, List.append_assoc, List.singleton_append]
theorem parseMembers_print : ∀ (ms : List (Bytes × Json)) {s : Bytes}, ms ≠ [] → wfMembers everyNumber ms →
    (ms.map Prod.fst).Pairwise (· < ·) → printMembers ms = some s →
    ∀ (fuel : Nat) (rest : Bytes) (acc : List (Bytes × Json)), s.length < fuel →
      (∀ k ∈ ms.map Prod.fst, ∀ k' ∈ acc.map Prod.fst, k' < k) →
      parseMembers fuel acc (s ++ rest) = some (.object (acc ++ ms), rest)
  | ms, _, _, _, _, _, 0, _, _, hf, _ => absurd hf (Nat.not_lt_zero _)
  | [], _, hne, _, _, _, _, _, _, _, _ => absurd rfl hne
  | [(k, v)], s, _, hw, _, h, fuel + 1, rest, acc, hf, hacc => by
      rw [printMembers] at h
      obtain ⟨q, hq, h⟩ := Option.bind_eq_some_iff.mp h
      obtain ⟨u, hu, h⟩ := Option.bind_eq_some_iff.mp h
      obtain rfl := Option.some.inj h
      obtain ⟨hk, rfl⟩ := quote_eq_some.mp hq
      have hv := parseValue_print v hw.1 hu fuel (0x7D :: rest)
        (by simp only [List.length_append, List.length_cons] at hf; omega) (follow_cons (by decide) _)
      have hkey := scanString_escape hk (0x3A :: (u ++ 0x7D :: rest))
      have happ := setMember_append (v := v) (hacc k (by simp))
      simp only [List.cons_append, List.append_assoc, List.nil_append]
      rw [parseMembers, skipSpace_cons (by decide)]
      show (scanString _).bind _ = _
      rw [hkey]
      show (parseValue fuel _).bind _ = _
      rw [hv]
      show some (Json.object (setMember k v acc), rest) = _
      rw [happ]
  | (k, v) :: (k₂, v₂) :: ms, s, _, hw, hs, h, fuel + 1, rest, acc, hf, hacc => by
      rw [printMembers] at h
      obtain ⟨q, hq, h⟩ := Option.bind_eq_some_iff.mp h
      obtain ⟨u, hu, h⟩ := Option.bind_eq_some_iff.mp h
      obtain ⟨t, ht, h⟩ := Option.bind_eq_some_iff.mp h
      obtain rfl := Option.some.inj h
      obtain ⟨hk, rfl⟩ := quote_eq_some.mp hq
      simp only [List.length_append, List.length_cons] at hf
      have hv := parseValue_print v hw.1 hu fuel (0x2C :: (t ++ rest)) (by omega)
        (follow_cons (by decide) _)
      have hkey := scanString_escape hk (0x3A :: (u ++ 0x2C :: (t ++ rest)))
      have happ := setMember_append (v := v) (hacc k (by simp))
      rw [List.map_cons, List.pairwise_cons] at hs
      have hrest := parseMembers_print ((k₂, v₂) :: ms) (by simp) hw.2 hs.2 ht fuel
        rest (acc ++ [(k, v)]) (by omega) (by
          intro k' hk' k'' hk''
          rw [List.map_append, List.mem_append] at hk''
          rcases hk'' with hk'' | hk''
          · exact hacc k' (List.mem_cons_of_mem _ hk') k'' hk''
          · rw [List.mem_singleton.mp hk'']
            exact hs.1 k' hk')
      simp only [List.cons_append, List.append_assoc, List.nil_append]
      rw [parseMembers, skipSpace_cons (by decide)]
      show (scanString _).bind _ = _
      rw [hkey]
      show (parseValue fuel _).bind _ = _
      rw [hv]
      show parseMembers fuel (setMember k v acc) (t ++ rest) = _
      rw [happ, hrest, List.append_assoc, List.singleton_append]
end

/-- **Round trip of a text.** -/
theorem parse_print {v : Json} {s : Bytes} (hw : v.wf everyNumber) (h : print v = some s) : parse s = some v := by
  have hbom : [0xEF, 0xBB, 0xBF].isPrefixOf s = false := by
    obtain ⟨c, t, rfl, -, -, hne⟩ := print_cons h
    rw [List.isPrefixOf, beq_false_of_ne (fun he => hne he.symm)]
    rfl
  have hvalue := parseValue_print v hw h (s.length + 1) [] (Nat.lt_succ_self _) (by simp [Follow])
  rw [List.append_nil] at hvalue
  rw [parse, hbom]
  show (parseValue (s.length + 1) s).bind _ = _
  rw [hvalue]
  rfl

/-- The codec of this file. -/
def text : Codec where
  parse := parse
  dump := print
  number := everyNumber
  parse_wf := fun h => (good_parse h).1
  parse_utf8 := fun h => (good_parse h).2
  dump_isSome := fun _ => print_isSome _
  parse_dump := parse_print

end JsonText
