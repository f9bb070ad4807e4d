import Mathlib.Data.List.AList
import WebrtcStreamer.Lib.SharedMutex

/-!
# `Utils.SafeUMap` — the map of `src/utils/SafeUMap.h`

The four operations of the template, for any type of keys, as sections under its `shared_mutex`. A value is a
`shared_ptr`: what it points to lives as long as there is one, which is what the use counts are for. A pointer is in
the map, in a call, or somebody holds it; those who do may copy it and drop it at any time.

`traverse` calls a function for one entry after the other, in the order of the `unordered_map`, whatever that
is. The function takes its pointer by value, and may keep a copy.
-/

namespace WebrtcStreamer

/-- The address of an object. -/
abbrev Ref := ℕ

abbrev SharedPtr := Option Ref

/-- The map, and the objects that pointers lead to. -/
structure SafeUMap (K : Type) where
  map : AList fun _ : K => SharedPtr
  /-- One for each object that has been made. -/
  useCounts : List ℕ
  /-- The pointers that callers hold. -/
  held : List Ref
  /-- The objects that have been destroyed, in order. -/
  destroyed : List Ref

namespace SafeUMap

open SharedMutex

variable {K : Type}

abbrev Entry (K : Type) := Sigma fun _ : K => SharedPtr

def new (K : Type) : SafeUMap K := { map := ∅, useCounts := [], held := [], destroyed := [] }

/-! ## Pointers -/

def useCount (s : SafeUMap K) (ref : Ref) : ℕ := s.useCounts.getD ref 0

/-- A pointer is copied. -/
def retain (s : SafeUMap K) : SharedPtr → SafeUMap K
  | none => s
  | some ref => { s with useCounts := s.useCounts.set ref (s.useCount ref + 1) }

/-- A pointer goes, and with the last one the object. -/
def release (s : SafeUMap K) : SharedPtr → SafeUMap K
  | none => s
  | some ref =>
      { s with
        useCounts := s.useCounts.set ref (s.useCount ref - 1)
        destroyed := if s.useCount ref ≤ 1 then s.destroyed ++ [ref] else s.destroyed }

/-- A caller gets a copy of a pointer. -/
def hold (s : SafeUMap K) (value : SharedPtr) : SafeUMap K :=
  { s.retain value with held := value.toList ++ s.held }

@[simp] theorem map_retain (s : SafeUMap K) (value : SharedPtr) : (s.retain value).map = s.map := by
  cases value <;> rfl

@[simp] theorem map_release (s : SafeUMap K) (value : SharedPtr) : (s.release value).map = s.map := by
  cases value <;> rfl

@[simp] theorem map_hold (s : SafeUMap K) (value : SharedPtr) : (s.hold value).map = s.map :=
  s.map_retain value

/-! ## Operations -/

inductive Op (K : Type)
  | emplace (key : K) (value : SharedPtr)
  | get (key : K)
  | erase (key : K)
  | traverse
deriving DecidableEq

inductive Ret (K : Type)
  | result (b : Bool)
  | pointer (value : SharedPtr)
  | visited (entries : List (Entry K))

/-- Where a call is, once it has the lock. -/
inductive Loc (K : Type)
  | top
  /-- A pointer is about to go that is not in the map any more, or never was. -/
  | dropping (value : SharedPtr) (result : Bool)
  | walking (visited rest : List (Entry K))
  /-- In the function, with a pointer of its own. -/
  | calling (visited : List (Entry K)) (entry : Entry K) (rest : List (Entry K))

/-- The order of the map, and whether the function keeps a copy. -/
inductive Choice (K : Type)
  | none
  | order (entries : List (Entry K))
  | keep

/-- `make_shared`, and what its caller does with pointers. -/
inductive Outside
  | make
  | copy (ref : Ref)
  | drop (ref : Ref)

namespace Op

def exclusive : Op K → Bool
  | .emplace _ _ | .erase _ => true
  | .get _ | .traverse => false

/-- The pointer that is passed goes from the caller to the parameter. -/
def pass : Op K → SafeUMap K → Option (SafeUMap K)
  | .emplace _ (some ref), s => if ref ∈ s.held then some { s with held := s.held.erase ref } else none
  | _, s => some s

end Op

theorem map_pass {op : Op K} {s s' : SafeUMap K} (h : op.pass s = some s') : s'.map = s.map := by
  unfold Op.pass at h
  split at h
  case h_1 =>
    split_ifs at h
    cases h
    rfl
  case h_2 =>
    cases h
    rfl

def outside : Outside → SafeUMap K → Option (SafeUMap K)
  | .make, s => some { s with useCounts := s.useCounts ++ [1], held := s.useCounts.length :: s.held }
  | .copy ref, s => if ref ∈ s.held then some (s.hold (some ref)) else none
  | .drop ref, s => if ref ∈ s.held then some ({ s with held := s.held.erase ref }.release (some ref)) else none

theorem map_outside {e : Outside} {s s' : SafeUMap K} (h : outside e s = some s') : s'.map = s.map := by
  cases e with
  | make =>
      cases h
      rfl
  | copy ref =>
      simp only [outside] at h
      split_ifs at h
      cases h
      rw [map_hold]
  | drop ref =>
      simp only [outside] at h
      split_ifs at h
      cases h
      rw [map_release]

variable [DecidableEq K]

namespace Op

def start : Op K → Choice K → SafeUMap K → Option (Loc K)
  | .traverse, .order entries, s => if entries.Perm s.map.entries then some (.walking [] entries) else none
  | .traverse, _, _ => none
  | _, _, _ => some .top

def next : Op K → Loc K → Choice K → SafeUMap K → Option (SafeUMap K × (Loc K ⊕ Ret K))
  | .emplace key value, .top, _, s =>
      if key ∈ s.map then some (s, .inl (.dropping value false))
      else some ({ s with map := s.map.insert key value }, .inr (.result true))
  | .get key, .top, _, s =>
      match s.map.lookup key with
      | none => some (s, .inr (.pointer none))
      | some value => some (s.hold value, .inr (.pointer value))
  | .erase key, .top, _, s =>
      match s.map.lookup key with
      | none => some (s, .inr (.result false))
      | some value => some ({ s with map := s.map.erase key }, .inl (.dropping value true))
  | .emplace _ _, .dropping value result, _, s | .erase _, .dropping value result, _, s =>
      some (s.release value, .inr (.result result))
  | .traverse, .walking visited (entry :: rest), _, s =>
      some (s.retain entry.2, .inl (.calling visited entry rest))
  | .traverse, .walking visited [], _, s => some (s, .inr (.visited visited))
  | .traverse, .calling visited entry rest, .keep, s =>
      some ((s.hold entry.2).release entry.2, .inl (.walking (visited ++ [entry]) rest))
  | .traverse, .calling visited entry rest, _, s =>
      some (s.release entry.2, .inl (.walking (visited ++ [entry]) rest))
  | _, _, _, _ => none

end Op

def program (K : Type) [DecidableEq K] : Program (SafeUMap K) (Op K) (Loc K) (Ret K) (Choice K) Outside where
  exclusive := Op.exclusive
  pass := Op.pass
  start := Op.start
  next := Op.next
  outside := outside

/-- The map shared by threads. -/
abbrev Threads (K : Type) := State (SafeUMap K) (Op K) (Loc K) (Ret K)

/-- `n` threads around an empty map. -/
def start (K : Type) (n : ℕ) : Threads K := SharedMutex.init (new K) n

/-! ## Steps -/

theorem start_eq_some {op : Op K} {choice : Choice K} {s : SafeUMap K} {loc : Loc K}
    (h : op.start choice s = some loc) :
    (op ≠ .traverse ∧ loc = .top) ∨
      (op = .traverse ∧ ∃ entries, entries.Perm s.map.entries ∧ loc = .walking [] entries) := by
  cases op with
  | emplace | get | erase =>
      cases h
      exact .inl ⟨by simp, rfl⟩
  | traverse =>
      cases choice with
      | none | keep => cases h
      | order entries =>
          simp only [Op.start] at h
          split_ifs at h with hperm
          cases h
          exact .inr ⟨rfl, entries, hperm, rfl⟩

/-- The steps of a section. -/
inductive Nexted (s : SafeUMap K) : Op K → Loc K → SafeUMap K → Loc K ⊕ Ret K → Prop
  | present (key : K) (value : SharedPtr) : key ∈ s.map →
      Nexted s (.emplace key value) .top s (.inl (.dropping value false))
  | emplaced (key : K) (value : SharedPtr) : key ∉ s.map →
      Nexted s (.emplace key value) .top { s with map := s.map.insert key value } (.inr (.result true))
  | missed (key : K) : s.map.lookup key = none → Nexted s (.get key) .top s (.inr (.pointer none))
  | got (key : K) (value : SharedPtr) : s.map.lookup key = some value →
      Nexted s (.get key) .top (s.hold value) (.inr (.pointer value))
  | absent (key : K) : s.map.lookup key = none → Nexted s (.erase key) .top s (.inr (.result false))
  | erased (key : K) (value : SharedPtr) : s.map.lookup key = some value →
      Nexted s (.erase key) .top { s with map := s.map.erase key } (.inl (.dropping value true))
  | dropped (op : Op K) (value : SharedPtr) (result : Bool) : op.exclusive = true →
      Nexted s op (.dropping value result) (s.release value) (.inr (.result result))
  | entered (visited rest : List (Entry K)) (entry : Entry K) :
      Nexted s .traverse (.walking visited (entry :: rest)) (s.retain entry.2) (.inl (.calling visited entry rest))
  | walked (visited : List (Entry K)) : Nexted s .traverse (.walking visited []) s (.inr (.visited visited))
  | kept (visited rest : List (Entry K)) (entry : Entry K) :
      Nexted s .traverse (.calling visited entry rest) ((s.hold entry.2).release entry.2)
        (.inl (.walking (visited ++ [entry]) rest))
  | left (visited rest : List (Entry K)) (entry : Entry K) :
      Nexted s .traverse (.calling visited entry rest) (s.release entry.2)
        (.inl (.walking (visited ++ [entry]) rest))

theorem nexted_of_next {op : Op K} {loc : Loc K} {choice : Choice K} {s s' : SafeUMap K} {out : Loc K ⊕ Ret K}
    (h : op.next loc choice s = some (s', out)) : Nexted s op loc s' out := by
  unfold Op.next at h
  split at h
  case h_1 key value =>
    split_ifs at h with hmem
    · cases h
      exact .present key value hmem
    · cases h
      exact .emplaced key value hmem
  case h_2 key =>
    split at h
    case h_1 hnone =>
      cases h
      exact .missed key hnone
    case h_2 value hsome =>
      cases h
      exact .got key value hsome
  case h_3 key =>
    split at h
    case h_1 hnone =>
      cases h
      exact .absent key hnone
    case h_2 value hsome =>
      cases h
      exact .erased key value hsome
  case h_4 | h_5 =>
    cases h
    exact .dropped _ _ _ rfl
  case h_6 visited entry rest =>
    cases h
    exact .entered visited rest entry
  case h_7 visited =>
    cases h
    exact .walked visited
  case h_8 visited entry rest =>
    cases h
    exact .kept visited rest entry
  case h_9 visited entry rest _ =>
    cases h
    exact .left visited rest entry
  case h_10 => cases h

/-! ## Sequential calls -/

/-- The map as a function. -/
abbrev View (K : Type) := K → Option SharedPtr

def view (s : SafeUMap K) : View K := fun key => s.map.lookup key

/-- What a call does on its own. -/
inductive Call (v : View K) : Op K → Ret K → View K → Prop
  | emplaced (key : K) (value : SharedPtr) : v key = none →
      Call v (.emplace key value) (.result true) (Function.update v key (some value))
  | present (key : K) (value : SharedPtr) : v key ≠ none → Call v (.emplace key value) (.result false) v
  | got (key : K) : Call v (.get key) (.pointer (v key).join) v
  | erased (key : K) : v key ≠ none → Call v (.erase key) (.result true) (Function.update v key none)
  | absent (key : K) : v key = none → Call v (.erase key) (.result false) v
  | traversed (visited : List (Entry K)) : visited.NodupKeys →
      (∀ key value, ⟨key, value⟩ ∈ visited ↔ v key = some value) → Call v .traverse (.visited visited) v

/-- The list is a listing of the map. -/
def Lists (v : View K) (entries : List (Entry K)) : Prop :=
  entries.NodupKeys ∧ ∀ key value, ⟨key, value⟩ ∈ entries ↔ v key = some value

theorem lists_of_perm {s : SafeUMap K} {entries : List (Entry K)} (h : entries.Perm s.map.entries) :
    Lists s.view entries :=
  ⟨(List.perm_nodupKeys h).mpr s.map.nodupKeys, fun key value => by
    rw [h.mem_iff, ← List.mem_dlookup_iff s.map.nodupKeys]
    rfl⟩

/-- What holds inside of a call that came upon `v`. -/
inductive Inside (v : View K) : Op K → Loc K → View K → Prop
  | top (op : Op K) : op ≠ .traverse → Inside v op .top v
  | present (key : K) (value : SharedPtr) : v key ≠ none →
      Inside v (.emplace key value) (.dropping value false) v
  | erased (key : K) (value : SharedPtr) : v key ≠ none →
      Inside v (.erase key) (.dropping value true) (Function.update v key none)
  | walking (visited rest : List (Entry K)) : Lists v (visited ++ rest) →
      Inside v .traverse (.walking visited rest) v
  | calling (visited rest : List (Entry K)) (entry : Entry K) : Lists v (visited ++ entry :: rest) →
      Inside v .traverse (.calling visited entry rest) v

theorem view_insert (s : SafeUMap K) (key : K) (value : SharedPtr) :
    view { s with map := s.map.insert key value } = Function.update s.view key (some value) := by
  funext key'
  by_cases heq : key' = key
  · subst heq
    rw [Function.update_self]
    exact AList.lookup_insert s.map
  · rw [Function.update_of_ne heq]
    exact AList.lookup_insert_ne heq

theorem view_erase (s : SafeUMap K) (key : K) :
    view { s with map := s.map.erase key } = Function.update s.view key none := by
  funext key'
  by_cases heq : key' = key
  · subst heq
    rw [Function.update_self]
    exact AList.lookup_erase key' s.map
  · rw [Function.update_of_ne heq]
    exact AList.lookup_erase_ne heq

theorem view_congr {s s' : SafeUMap K} (h : s'.map = s.map) : s'.view = s.view := by
  funext key
  rw [view, h]
  rfl

theorem view_ne_none {s : SafeUMap K} {key : K} : s.view key ≠ none ↔ key ∈ s.map := by
  rw [view, ne_eq, AList.lookup_eq_none, not_not]

/-- **The outline of the four operations.** -/
def outline (K : Type) [DecidableEq K] : Outline (program K) view where
  inside op v loc w := Inside v op loc w
  post op v r w := Call v op r w
  pass h := view_congr (map_pass h)
  outside h := view_congr (map_outside h)
  reads := by
    intro op loc choice s s' out hex h
    refine view_congr ?_
    cases nexted_of_next h with
    | present | emplaced | absent | erased => cases hex
    | dropped op value result hex' =>
        have htrue : (program K).exclusive op = true := hex'
        rw [htrue] at hex
        cases hex
    | missed | walked => rfl
    | got | entered | kept | left => simp
  start := by
    intro op choice s loc h
    rcases start_eq_some h with ⟨hne, rfl⟩ | ⟨rfl, entries, hperm, rfl⟩
    · exact .top op hne
    · exact .walking [] entries (lists_of_perm hperm)
  next := by
    intro op v loc choice s s' loc' hin h
    have hst := nexted_of_next h
    generalize hw : s.view = w at hin
    cases hin with
    | top =>
        cases hst with
        | present key value hmem => exact hw ▸ .present key value (view_ne_none.mpr hmem)
        | erased key value hsome =>
            rw [view_erase, hw]
            exact .erased key value (by rw [← hw, view, hsome]; simp)
    | present | erased => cases hst
    | walking visited rest hlists =>
        cases hst with
        | entered visited rest entry =>
            rw [view_congr (map_retain s entry.2), hw]
            exact .calling visited rest entry hlists
    | calling visited rest entry hlists =>
        have hlists' : Lists v ((visited ++ [entry]) ++ rest) := by rwa [List.append_assoc]
        cases hst with
        | kept =>
            rw [view_congr (s := s) (by simp), hw]
            exact .walking (visited ++ [entry]) rest hlists'
        | left =>
            rw [view_congr (s := s) (by simp), hw]
            exact .walking (visited ++ [entry]) rest hlists'
  done := by
    intro op v loc choice s s' r hin h
    have hst := nexted_of_next h
    generalize hw : s.view = w at hin
    cases hin with
    | top =>
        cases hst with
        | emplaced key value hmem =>
            rw [view_insert, hw]
            exact .emplaced key value (by rw [← hw]; exact AList.lookup_eq_none.mpr hmem)
        | missed key hnone =>
            have hjoin : none = (v key).join := by rw [← hw, view, hnone]; rfl
            rw [hw, hjoin]
            exact .got key
        | got key value hsome =>
            have hjoin : value = (v key).join := by rw [← hw, view, hsome]; rfl
            rw [view_congr (map_hold s value), hw, hjoin]
            exact .got key
        | absent key hnone => exact hw ▸ .absent key hnone
    | present key value hne =>
        cases hst with
        | dropped =>
            rw [view_congr (map_release s value), hw]
            exact .present key value hne
    | erased key value hne =>
        cases hst with
        | dropped =>
            rw [view_congr (map_release s value), hw]
            exact .erased key hne
    | walking visited rest hlists =>
        cases hst with
        | walked =>
            rw [hw]
            rw [List.append_nil] at hlists
            exact .traversed visited hlists.1 hlists.2
    | calling => cases hst

end SafeUMap

end WebrtcStreamer
