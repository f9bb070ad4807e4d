import Mathlib.Data.List.Basic

/-!
# `Lib.Json` — JSON values and the library calls that a program makes on them

Values as `nlohmann::json` keeps them: strings are byte strings, objects are sorted by key with each key
once. The accessors are the ones with side conditions: `operator[]` on a mutable value inserts `null` for a
missing key and throws on a value that has no members, `get<string>()` throws on a value that is not a
string. Exceptions are `Except` results.

`Codec` is the text side, `parse` and `dump`. It is a parameter of everything built on this file; its
fields are what the library documents. `Lib.JsonText` has a concrete one.

## Contents
- **Values.** `Json`, `find`, `index`, `assign`, `getString`; `lookup_setMember_self/_ne`.
- **Well-formedness.** `wf` (sorted objects, numbers that are represented) and `utf8` (strings are valid UTF-8),
  kept by `assign`.
- **Text.** `Codec`, and what a value read, changed and written is read back as (`Codec.read_back`).
-/

/-- A byte string: `std::string`. -/
abbrev Bytes := List UInt8

/-- The bytes of an ASCII literal. -/
def str (s : String) : Bytes := s.toList.map (fun c => c.toUInt8)

/-- A JSON value. A number is `mantissa · 10 ^ exponent`; an object lists its members by key. -/
inductive Json
  | null
  | boolean (b : Bool)
  | number (mantissa exponent : Int)
  | string (s : Bytes)
  | array (elements : List Json)
  | object (members : List (Bytes × Json))

/-! ## UTF-8 -/

namespace Utf8

/-- Where a UTF-8 decoder stands: between characters, or owing continuation bytes, the first of which is
    restricted after some leading bytes (no overlong forms, no surrogates, nothing above U+10FFFF). -/
inductive State
  | start
  | tail1
  | tail2
  | tail3
  | afterE0
  | afterED
  | afterF0
  | afterF4
deriving DecidableEq

/-- The state after one byte; `none` when no valid text continues with it. -/
def step : State → UInt8 → Option State
  | .start, b =>
      if b ≤ 0x7F then some .start
      else if 0xC2 ≤ b ∧ b ≤ 0xDF then some .tail1
      else if b = 0xE0 then some .afterE0
      else if b = 0xED then some .afterED
      else if 0xE1 ≤ b ∧ b ≤ 0xEF then some .tail2
      else if b = 0xF0 then some .afterF0
      else if 0xF1 ≤ b ∧ b ≤ 0xF3 then some .tail3
      else if b = 0xF4 then some .afterF4
      else none
  | .tail1, b => if 0x80 ≤ b ∧ b ≤ 0xBF then some .start else none
  | .tail2, b => if 0x80 ≤ b ∧ b ≤ 0xBF then some .tail1 else none
  | .tail3, b => if 0x80 ≤ b ∧ b ≤ 0xBF then some .tail2 else none
  | .afterE0, b => if 0xA0 ≤ b ∧ b ≤ 0xBF then some .tail1 else none
  | .afterED, b => if 0x80 ≤ b ∧ b ≤ 0x9F then some .tail1 else none
  | .afterF0, b => if 0x90 ≤ b ∧ b ≤ 0xBF then some .tail2 else none
  | .afterF4, b => if 0x80 ≤ b ∧ b ≤ 0x8F then some .tail2 else none

def run : State → Bytes → Bool
  | st, [] => st = .start
  | st, b :: rest =>
      match step st b with
      | some st' => run st' rest
      | none => false

end Utf8

/-- The byte string is valid UTF-8. -/
def utf8Valid (s : Bytes) : Bool := Utf8.run .start s

namespace Json

/-- What the library throws: `parse_error`, or `type_error` with its number. -/
inductive Error
  | parseError
  | typeError (id : Nat)
deriving DecidableEq

/-! ## Members of an object -/

/-- Put a value under a key: in place if the key is there, else where the order wants it. -/
def setMember (key : Bytes) (v : Json) : List (Bytes × Json) → List (Bytes × Json)
  | [] => [(key, v)]
  | (k, w) :: rest =>
      if k = key then (key, v) :: rest
      else if key < k then (key, v) :: (k, w) :: rest
      else (k, w) :: setMember key v rest

theorem lookup_setMember_self (key : Bytes) (v : Json) (ms : List (Bytes × Json)) :
    (setMember key v ms).lookup key = some v := by
  induction ms with
  | nil => simp [setMember]
  | cons m rest ih =>
      obtain ⟨k, w⟩ := m
      simp only [setMember]
      split
      · simp
      · rename_i hk
        split
        · simp
        · rw [List.lookup_cons, beq_false_of_ne (fun h => hk h.symm)]
          exact ih

theorem lookup_setMember_ne {key key' : Bytes} (h : key' ≠ key) (v : Json) (ms : List (Bytes × Json)) :
    (setMember key v ms).lookup key' = ms.lookup key' := by
  induction ms with
  | nil => simp [setMember, List.lookup_cons, beq_false_of_ne h]
  | cons m rest ih =>
      obtain ⟨k, w⟩ := m
      simp only [setMember]
      split
      · rename_i hk
        subst hk
        rw [List.lookup_cons, List.lookup_cons, beq_false_of_ne h]
      · split
        · rw [List.lookup_cons, beq_false_of_ne h]
        · rw [List.lookup_cons, List.lookup_cons, ih]

/-- Setting a key twice keeps the second value. -/
theorem setMember_setMember (key : Bytes) (v w : Json) (ms : List (Bytes × Json)) :
    setMember key w (setMember key v ms) = setMember key w ms := by
  induction ms with
  | nil => simp [setMember]
  | cons m rest ih =>
      obtain ⟨k, u⟩ := m
      simp only [setMember]
      split
      · rename_i hk
        subst hk
        simp [setMember]
      · rename_i hk
        split
        · simp [setMember]
        · rename_i hlt
          simp only [setMember, if_neg hk, if_neg hlt, ih]

/-- In a sorted object, setting a key to the value it has changes nothing. -/
theorem setMember_of_lookup {key : Bytes} {v : Json} {ms : List (Bytes × Json)}
    (hs : (ms.map Prod.fst).Pairwise (· < ·)) (h : ms.lookup key = some v) : setMember key v ms = ms := by
  induction ms with
  | nil => exact absurd h (by simp)
  | cons m rest ih =>
      obtain ⟨k, w⟩ := m
      rw [List.map_cons, List.pairwise_cons] at hs
      rw [List.lookup_cons] at h
      simp only [setMember]
      by_cases hk : k = key
      · subst hk
        rw [if_pos rfl]
        simp only [beq_self_eq_true] at h
        rw [Option.some.inj h]
      · rw [beq_false_of_ne (fun he => hk he.symm)] at h
        have hmem : key ∈ rest.map Prod.fst := by
          obtain ⟨l₁, l₂, hl, -⟩ := List.lookup_eq_some_iff.mp h
          rw [hl]
          simp
        have hge : ¬ key < k := fun hlt => List.lt_irrefl k (List.lt_trans (hs.1 key hmem) hlt)
        rw [if_neg hk, if_neg hge, ih hs.2 h]

/-! ## Library calls -/

/-- `find`: the member under `key`, `none` for `end()`; only objects have members. -/
def find (j : Json) (key : Bytes) : Option Json :=
  match j with
  | .object ms => ms.lookup key
  | _ => none

/-- `j[key] = v` on a mutable value: `null` becomes an object, any other non-object throws
    `type_error` 305. -/
def assign (j : Json) (key : Bytes) (v : Json) : Except Error Json :=
  match j with
  | .object ms => .ok (.object (setMember key v ms))
  | .null => .ok (.object [(key, v)])
  | _ => .error (.typeError 305)

/-- `j[key]` read on a mutable value: the value it refers to, and the changed `j` (a missing key has been
    inserted with `null`). -/
def index (j : Json) (key : Bytes) : Except Error (Json × Json) :=
  match j.find key with
  | some v => .ok (v, j)
  | none => (j.assign key .null).map (fun j' => (.null, j'))

/-- `get<string>()`: throws `type_error` 302 on anything but a string. -/
def getString : Json → Except Error Bytes
  | .string s => .ok s
  | _ => .error (.typeError 302)

/-- The member under `key` is the string `s`. -/
def HasString (j : Json) (key s : Bytes) : Prop := j.find key = some (.string s)

theorem getString_ok {j : Json} {s : Bytes} : j.getString = .ok s ↔ j = .string s := by
  cases j <;> simp [getString]

theorem index_ok {j v : Json} {key : Bytes} (h : j.find key = some v) :
    j.index key = .ok (v, j) := by
  unfold index
  rw [h]

/-- `string d = j[key]` succeeds exactly on an object with a string under `key`, and leaves it alone. -/
theorem index_getString {j : Json} {key d : Bytes} {j' : Json} :
    (∃ v, j.index key = .ok (v, j') ∧ v.getString = .ok d) ↔ j' = j ∧ j.HasString key d := by
  constructor
  · rintro ⟨v, hi, hg⟩
    rw [getString_ok.mp hg] at hi
    unfold index at hi
    cases hf : j.find key with
    | some w =>
        rw [hf] at hi
        obtain ⟨rfl, rfl⟩ := Prod.mk.inj (Except.ok.inj hi)
        exact ⟨rfl, hf⟩
    | none =>
        rw [hf] at hi
        cases ha : j.assign key .null with
        | error e => rw [ha] at hi; exact absurd hi (by simp [Except.map])
        | ok w =>
            rw [ha] at hi
            have := (Prod.mk.inj (Except.ok.inj hi)).1
            exact absurd this (by simp)
  · rintro ⟨rfl, h⟩
    exact ⟨_, index_ok h, rfl⟩

theorem find_assign_self {j j' v : Json} {key : Bytes} (h : j.assign key v = .ok j') :
    j'.find key = some v := by
  cases j with
  | object ms =>
      obtain rfl := Except.ok.inj h
      exact lookup_setMember_self key v ms
  | null =>
      obtain rfl := Except.ok.inj h
      simp [find]
  | boolean _ | number _ _ | string _ | array _ => exact absurd h (by simp [assign])

theorem find_assign_ne {j j' v : Json} {key key' : Bytes} (h : j.assign key v = .ok j')
    (hne : key' ≠ key) : j'.find key' = j.find key' := by
  cases j with
  | object ms =>
      obtain rfl := Except.ok.inj h
      exact lookup_setMember_ne hne v ms
  | null =>
      obtain rfl := Except.ok.inj h
      simp [find, List.lookup_cons, beq_false_of_ne hne]
  | boolean _ | number _ _ | string _ | array _ => exact absurd h (by simp [assign])

/-- On an object with members to find, `j[key] = v` does not throw. -/
theorem assign_of_find {j v w : Json} {key key' : Bytes} (h : j.find key' = some w) :
    ∃ j', j.assign key v = .ok j' := by
  cases j with
  | object ms => exact ⟨_, rfl⟩
  | null | boolean _ | number _ _ | string _ | array _ => exact absurd h (by simp [find])

/-! ## Well-formed values -/

mutual
/-- Objects are sorted by key, each key once, all the way down, and the numbers are some that a library can
    represent. -/
def wf (number : Int → Int → Prop) : Json → Prop
  | .number mantissa exponent => number mantissa exponent
  | .array xs => wfElements number xs
  | .object ms => (ms.map Prod.fst).Pairwise (· < ·) ∧ wfMembers number ms
  | _ => True
def wfElements (number : Int → Int → Prop) : List Json → Prop
  | [] => True
  | x :: xs => x.wf number ∧ wfElements number xs
def wfMembers (number : Int → Int → Prop) : List (Bytes × Json) → Prop
  | [] => True
  | (_, v) :: ms => v.wf number ∧ wfMembers number ms
end

mutual
/-- Every string and every key is valid UTF-8. -/
def utf8 : Json → Prop
  | .string s => utf8Valid s = true
  | .array xs => utf8Elements xs
  | .object ms => utf8Members ms
  | _ => True
def utf8Elements : List Json → Prop
  | [] => True
  | x :: xs => x.utf8 ∧ utf8Elements xs
def utf8Members : List (Bytes × Json) → Prop
  | [] => True
  | (k, v) :: ms => utf8Valid k = true ∧ v.utf8 ∧ utf8Members ms
end

variable {number : Int → Int → Prop}

theorem key_of_mem_setMember {key : Bytes} {v : Json} {ms : List (Bytes × Json)} {k : Bytes}
    (h : k ∈ (setMember key v ms).map Prod.fst) : k = key ∨ k ∈ ms.map Prod.fst := by
  induction ms with
  | nil => exact .inl (by simpa [setMember] using h)
  | cons m rest ih =>
      obtain ⟨k', w⟩ := m
      simp only [setMember] at h
      split at h
      · rename_i hk
        subst hk
        exact .inr h
      · split at h
        · simpa using h
        · rw [List.map_cons, List.mem_cons] at h ⊢
          rcases h with h | h
          · exact .inr (.inl h)
          · exact (ih h).imp_right .inr

theorem sorted_setMember {key : Bytes} {v : Json} {ms : List (Bytes × Json)}
    (h : (ms.map Prod.fst).Pairwise (· < ·)) :
    ((setMember key v ms).map Prod.fst).Pairwise (· < ·) := by
  induction ms with
  | nil => simp [setMember]
  | cons m rest ih =>
      obtain ⟨k, w⟩ := m
      rw [List.map_cons, List.pairwise_cons] at h
      simp only [setMember]
      split
      · rename_i hk
        subst hk
        exact List.pairwise_cons.mpr h
      · rename_i hk
        split
        · rename_i hlt
          rw [List.map_cons, List.map_cons, List.pairwise_cons, List.pairwise_cons]
          refine ⟨fun k' hk' => ?_, h⟩
          rcases List.mem_cons.mp hk' with rfl | hm
          · exact hlt
          · exact List.lt_trans hlt (h.1 k' hm)
        · rename_i hlt
          rw [List.map_cons, List.pairwise_cons]
          refine ⟨fun k' hk' => ?_, ih h.2⟩
          rcases key_of_mem_setMember hk' with rfl | hm
          · exact (List.le_iff_lt_or_eq.mp (List.not_lt.mp hlt)).resolve_right hk
          · exact h.1 k' hm

theorem wfMembers_setMember {key : Bytes} {v : Json} {ms : List (Bytes × Json)} (hv : v.wf number)
    (h : wfMembers number ms) : wfMembers number (setMember key v ms) := by
  induction ms with
  | nil => simpa [setMember, wfMembers] using hv
  | cons m rest ih =>
      obtain ⟨k, w⟩ := m
      simp only [wfMembers] at h
      simp only [setMember]
      split
      · exact ⟨hv, h.2⟩
      · split
        · exact ⟨hv, h⟩
        · exact ⟨h.1, ih h.2⟩

theorem utf8Members_setMember {key : Bytes} {v : Json} {ms : List (Bytes × Json)}
    (hk : utf8Valid key = true) (hv : v.utf8) (h : utf8Members ms) :
    utf8Members (setMember key v ms) := by
  induction ms with
  | nil => exact ⟨hk, hv, trivial⟩
  | cons m rest ih =>
      obtain ⟨k, w⟩ := m
      simp only [utf8Members] at h
      simp only [setMember]
      split
      · exact ⟨hk, hv, h.2.2⟩
      · split
        · exact ⟨hk, hv, h⟩
        · exact ⟨h.1, h.2.1, ih h.2.2⟩

theorem wf_assign {j j' v : Json} {key : Bytes} (h : j.assign key v = .ok j') (hj : j.wf number)
    (hv : v.wf number) : j'.wf number := by
  cases j with
  | object ms =>
      obtain rfl := Except.ok.inj h
      exact ⟨sorted_setMember hj.1, wfMembers_setMember hv hj.2⟩
  | null =>
      obtain rfl := Except.ok.inj h
      exact ⟨by simp, hv, trivial⟩
  | boolean _ | number _ _ | string _ | array _ => exact absurd h (by simp [assign])

theorem utf8_assign {j j' v : Json} {key : Bytes} (h : j.assign key v = .ok j')
    (hk : utf8Valid key = true) (hj : j.utf8) (hv : v.utf8) : j'.utf8 := by
  cases j with
  | object ms =>
      obtain rfl := Except.ok.inj h
      exact utf8Members_setMember hk hv hj
  | null =>
      obtain rfl := Except.ok.inj h
      exact ⟨hk, hv, trivial⟩
  | boolean _ | number _ _ | string _ | array _ => exact absurd h (by simp [assign])

end Json

namespace Json

theorem utf8_find {j v : Json} {key : Bytes} (hf : j.find key = some v) (hu : j.utf8) : v.utf8 := by
  cases j with
  | object ms =>
      change ms.lookup key = some v at hf
      rw [utf8] at hu
      induction ms with
      | nil => exact absurd hf (by simp)
      | cons m rest ih =>
          obtain ⟨k, w⟩ := m
          rw [utf8Members] at hu
          rw [List.lookup_cons] at hf
          split at hf
          · exact Option.some.inj hf ▸ hu.2.1
          · exact ih hu.2.2 hf
  | null | boolean _ | number _ _ | string _ | array _ => exact absurd hf (by simp [find])

variable {number : Int → Int → Prop}

/-- Setting a member of a well-formed object to the value it has. -/
theorem assign_self {j v : Json} {key : Bytes} (hw : j.wf number) (hf : j.find key = some v) :
    j.assign key v = .ok j := by
  cases j with
  | object ms =>
      show Except.ok (Json.object (setMember key v ms)) = _
      rw [setMember_of_lookup hw.1 hf]
  | null | boolean _ | number _ _ | string _ | array _ => exact absurd hf (by simp [find])

/-- Setting a member of a well-formed object back to the value it had. -/
theorem assign_assign {j j' v w : Json} {key : Bytes} (hw : j.wf number) (hf : j.find key = some v)
    (ha : j.assign key w = .ok j') : j'.assign key v = .ok j := by
  cases j with
  | object ms =>
      obtain rfl := Except.ok.inj ha
      show Except.ok (Json.object (setMember key v (setMember key w ms))) = _
      rw [setMember_setMember, setMember_of_lookup hw.1 hf]
  | null | boolean _ | number _ _ | string _ | array _ => exact absurd hf (by simp [find])

end Json

/-! ## Text -/

/-- **The text side of the library**, with what it documents: `parse` rejects invalid UTF-8 and builds
    well-formed values, `dump` throws `type_error` 316 exactly on a value with invalid UTF-8, and `parse`
    undoes `dump`. `none` stands for the exception. Of a value that is not well formed, nothing is said. -/
structure Codec where
  parse : Bytes → Option Json
  dump : Json → Option Bytes
  /-- The numbers that the library represents, each in the one form in which it is read. -/
  number : Int → Int → Prop
  parse_wf : ∀ {s v}, parse s = some v → v.wf number
  parse_utf8 : ∀ {s v}, parse s = some v → v.utf8
  dump_isSome : ∀ {v}, v.wf number → ((dump v).isSome ↔ v.utf8)
  parse_dump : ∀ {v s}, v.wf number → dump v = some s → parse s = some v

namespace Codec

variable (C : Codec)

/-- What was read can be written. -/
theorem dump_of_parse {s : Bytes} {v : Json} (h : C.parse s = some v) : ∃ t, C.dump v = some t :=
  Option.isSome_iff_exists.mp ((C.dump_isSome (C.parse_wf h)).mpr (C.parse_utf8 h))

/-- **Read, set a member, write, read back.** The text written is read back as the changed value. -/
theorem read_back {s t key : Bytes} {j j' v : Json} (hp : C.parse s = some j)
    (ha : j.assign key v = .ok j') (hv : v.wf C.number) (hd : C.dump j' = some t) : C.parse t = some j' :=
  C.parse_dump (Json.wf_assign ha (C.parse_wf hp) hv) hd

/-- Two well-formed values with the same text are equal. -/
theorem dump_injective {v w : Json} {s : Bytes} (hv : v.wf C.number) (hw : w.wf C.number) (h₁ : C.dump v = some s)
    (h₂ : C.dump w = some s) : v = w :=
  Option.some.inj ((C.parse_dump hv h₁).symm.trans (C.parse_dump hw h₂))

end Codec
