import Mathlib.Data.List.Induction
import Mathlib.Order.Basic

/-!
# `Lib.Incremental` — items read from a stream as its pieces arrive

## Contents
- **Parsers.** `Parser`: what recognises the first item of a stream, from a beginning of the stream that is
  long enough. An item may be recognised before all of it is there; the rest is ignored as it arrives.
- **Feeding.** `Parser.feed` and the loop `Parser.drain`, with `Parser.within` for how long its items are;
  `feed_append`: the items do not depend on how the
  stream is cut. `feed_flatMap` for a stream of encoded items, `drain_part` and `within_part` for its beginnings,
  `Quiet` for what is left.
- **Handling.** `Parser.drive`, the loop with something done to each item as it is read; `drive_fst` and
  `drive_snd` take it apart into the items and the handling.
-/

namespace Incremental

variable {α β γ σ : Type}

/-! ## Parsers -/

structure Parser (α β : Type) where
  /-- The first item and its length, which may go beyond what is there. -/
  parse : List α → Option (β × ℕ)
  positive : ∀ {xs x n}, parse xs = some (x, n) → 0 < n
  stable : ∀ {xs x n} (ys), parse xs = some (x, n) → parse (xs ++ ys) = some (x, n)

/-- What is kept between two pieces: elements that make no item yet, and how many more are ignored. -/
structure Pending (α : Type) where
  buffer : List α
  ignored : ℕ

def Pending.empty : Pending α := ⟨[], 0⟩

def Pending.insert (p : Pending α) (chunk : List α) : Pending α := { p with buffer := p.buffer ++ chunk }

/-- Drop what is ignored. -/
def Pending.discard (p : Pending α) : Pending α :=
  let n := min p.ignored p.buffer.length
  { buffer := p.buffer.drop n, ignored := p.ignored - n }

theorem Pending.discard_eq (p : Pending α) :
    p.discard = ⟨p.buffer.drop p.ignored, p.ignored - p.buffer.length⟩ := by
  have hdrop : p.buffer.drop (min p.ignored p.buffer.length) = p.buffer.drop p.ignored := by
    rcases Nat.le_total p.ignored p.buffer.length with h | h
    · rw [Nat.min_eq_left h]
    · rw [Nat.min_eq_right h, List.drop_length, List.drop_eq_nil_of_le h]
  have hsub : p.ignored - min p.ignored p.buffer.length = p.ignored - p.buffer.length := by omega
  rw [discard, hdrop, hsub]

namespace Parser

variable (P : Parser α β)

/-- The loop that reads items while there are any; one turn for each element is enough, and one more. -/
def drain : ℕ → List α → List β × Pending α
  | 0, xs => ([], ⟨xs, 0⟩)
  | k + 1, xs =>
      match P.parse xs with
      | none => ([], ⟨xs, 0⟩)
      | some (x, n) =>
          if xs.length < n then ([x], ⟨[], n - xs.length⟩)
          else (x :: (drain k (xs.drop n)).1, (drain k (xs.drop n)).2)

/-- The loop comes across no item of `bound` elements or more. -/
def within (bound : ℕ) : ℕ → List α → Bool
  | 0, _ => true
  | k + 1, xs =>
      match P.parse xs with
      | none => true
      | some (_, n) => decide (n < bound) && (decide (xs.length < n) || within bound k (xs.drop n))

/-- Read a piece of the stream. -/
def feed (p : Pending α) (chunk : List α) : List β × Pending α :=
  let q := (p.insert chunk).discard
  if q.ignored = 0 then P.drain (q.buffer.length + 1) q.buffer else ([], q)

variable {P}

theorem drain_none {k : ℕ} {xs : List α} (h : P.parse xs = none) : P.drain k xs = ([], ⟨xs, 0⟩) := by
  cases k with
  | zero => rfl
  | succ k => rw [drain, h]

theorem drain_beyond {k : ℕ} {xs : List α} {x : β} {n : ℕ} (h : P.parse xs = some (x, n)) (hn : xs.length < n) :
    P.drain (k + 1) xs = ([x], ⟨[], n - xs.length⟩) := by
  rw [drain, h]
  exact if_pos hn

theorem drain_some {k : ℕ} {xs : List α} {x : β} {n : ℕ} (h : P.parse xs = some (x, n)) (hn : n ≤ xs.length) :
    P.drain (k + 1) xs = (x :: (P.drain k (xs.drop n)).1, (P.drain k (xs.drop n)).2) := by
  rw [drain, h]
  exact if_neg (Nat.not_lt.mpr hn)

/-- More turns change nothing. -/
theorem drain_eq {k k' : ℕ} {xs : List α} (h : xs.length < k) (h' : xs.length < k') :
    P.drain k xs = P.drain k' xs := by
  induction k generalizing k' xs with
  | zero => exact absurd h (Nat.not_lt_zero _)
  | succ k ih =>
      obtain ⟨k', rfl⟩ := Nat.exists_eq_add_of_lt (Nat.zero_lt_of_lt h')
      rw [Nat.zero_add] at h' ⊢
      cases hp : P.parse xs with
      | none => rw [drain_none hp, drain_none hp]
      | some item =>
          obtain ⟨x, n⟩ := item
          by_cases hn : xs.length < n
          · rw [drain_beyond hp hn, drain_beyond hp hn]
          · have hpos := P.positive hp
            have hle : n ≤ xs.length := Nat.le_of_not_lt hn
            have hdrop : (xs.drop n).length = xs.length - n := List.length_drop
            have hrest : P.drain k (xs.drop n) = P.drain k' (xs.drop n) := ih (by omega) (by omega)
            rw [drain_some hp hle, drain_some hp hle, hrest]

/-! ## Feeding -/

theorem feed_eq (p : Pending α) (chunk : List α) :
    P.feed p chunk =
      if p.ignored ≤ p.buffer.length + chunk.length then
        P.drain (p.buffer.length + chunk.length + 1) ((p.buffer ++ chunk).drop p.ignored)
      else ([], ⟨[], p.ignored - (p.buffer.length + chunk.length)⟩) := by
  have hlen : (p.buffer ++ chunk).length = p.buffer.length + chunk.length := List.length_append
  rw [feed, Pending.discard_eq, Pending.insert, hlen]
  by_cases h : p.ignored ≤ p.buffer.length + chunk.length
  · rw [if_pos h, if_pos (Nat.sub_eq_zero_of_le h)]
    apply drain_eq (Nat.lt_succ_self _)
    rw [List.length_drop, hlen]
    omega
  · have hdrop : (p.buffer ++ chunk).drop p.ignored = [] := by
      apply List.drop_eq_nil_of_le
      omega
    rw [if_neg h, if_neg (Nat.sub_ne_zero_of_lt (Nat.lt_of_not_le h)), hdrop]

theorem feed_of_lt {p : Pending α} {chunk : List α} (h : p.buffer.length + chunk.length < p.ignored) :
    P.feed p chunk = ([], ⟨[], p.ignored - (p.buffer.length + chunk.length)⟩) := by
  rw [feed_eq, if_neg (Nat.not_le.mpr h)]

theorem feed_of_le {p : Pending α} {chunk : List α} {k : ℕ} (h : p.ignored ≤ p.buffer.length + chunk.length)
    (hk : p.buffer.length + chunk.length < k + p.ignored) :
    P.feed p chunk = P.drain k ((p.buffer ++ chunk).drop p.ignored) := by
  have hlen : ((p.buffer ++ chunk).drop p.ignored).length = p.buffer.length + chunk.length - p.ignored := by
    rw [List.length_drop, List.length_append]
  rw [feed_eq, if_pos h]
  exact drain_eq (by omega) (by omega)

/-- The loop over a longer stream goes on where the loop over its beginning has stopped. -/
theorem drain_append {k k' : ℕ} {xs ys : List α} (h : xs.length < k) (h' : xs.length + ys.length < k') :
    P.drain k' (xs ++ ys) =
      ((P.drain k xs).1 ++ (P.feed (P.drain k xs).2 ys).1, (P.feed (P.drain k xs).2 ys).2) := by
  induction k generalizing k' xs with
  | zero => exact absurd h (Nat.not_lt_zero _)
  | succ k ih =>
      obtain ⟨k', rfl⟩ := Nat.exists_eq_add_of_lt (Nat.zero_lt_of_lt h')
      rw [Nat.zero_add] at h' ⊢
      have hlen : (xs ++ ys).length = xs.length + ys.length := List.length_append
      cases hp : P.parse xs with
      -- Nothing is read of the beginning, and all of it is kept.
      | none =>
          have hfeed : P.feed ⟨xs, 0⟩ ys = P.drain (k' + 1) (xs ++ ys) := feed_of_le (Nat.zero_le _) h'
          rw [drain_none hp, hfeed]
          rfl
      | some item =>
          obtain ⟨x, n⟩ := item
          have hpos := P.positive hp
          have happ := P.stable ys hp
          rcases Nat.lt_or_ge xs.length n with hn | hn
          -- The item goes beyond the beginning: what is missing of it is ignored, of `ys` all or a part.
          · rw [drain_beyond hp hn]
            rcases Nat.lt_or_ge (xs.length + ys.length) n with hfar | hnear
            · have hignored : ([] : List α).length + ys.length < n - xs.length := by
                rw [List.length_nil]
                omega
              have hrest : n - (xs.length + ys.length) = n - xs.length - (0 + ys.length) := by omega
              rw [drain_beyond happ (by omega), feed_of_lt hignored, hlen, hrest]
              rfl
            · have hfeed : P.feed ⟨[], n - xs.length⟩ ys = P.drain k' (ys.drop (n - xs.length)) := by
                apply feed_of_le
                · show n - xs.length ≤ 0 + ys.length
                  omega
                · show 0 + ys.length < k' + (n - xs.length)
                  omega
              have hdrop : (xs ++ ys).drop n = ys.drop (n - xs.length) := by
                rw [List.drop_append, List.drop_eq_nil_of_le (Nat.le_of_lt hn), List.nil_append]
              rw [drain_some happ (by omega), hdrop, hfeed]
              rfl
          · have hdrop : (xs.drop n).length = xs.length - n := List.length_drop
            have hrest := @ih k' (xs.drop n) (by omega) (by omega)
            rw [drain_some hp hn, drain_some happ (by omega), List.drop_append_of_le_length hn, hrest]
            rfl

/-- **Two pieces are read as one.** -/
theorem feed_append (p : Pending α) (xs ys : List α) :
    P.feed p (xs ++ ys) = ((P.feed p xs).1 ++ (P.feed (P.feed p xs).2 ys).1, (P.feed (P.feed p xs).2 ys).2) := by
  have hlen : (xs ++ ys).length = xs.length + ys.length := List.length_append
  rcases Nat.lt_or_ge (p.buffer.length + xs.length) p.ignored with hfar | hnear
  -- All of the first piece is ignored.
  · rw [feed_of_lt hfar, List.nil_append, feed_eq, feed_eq]
    simp only [List.length_nil, Nat.zero_add, hlen]
    by_cases h : p.ignored ≤ p.buffer.length + (xs.length + ys.length)
    · have hdrop : (p.buffer ++ (xs ++ ys)).drop p.ignored =
          ys.drop (p.ignored - (p.buffer.length + xs.length)) := by
        rw [← List.append_assoc, List.drop_append, List.length_append, List.drop_eq_nil_of_le, List.nil_append]
        rw [List.length_append]
        exact Nat.le_of_lt hfar
      rw [if_pos h, if_pos (by omega), List.nil_append, hdrop]
      apply drain_eq
      · rw [List.length_drop]
        omega
      · rw [List.length_drop]
        omega
    · rw [if_neg h, if_neg (by omega)]
      congr 2
      omega
  · have hdrop : ((p.buffer ++ xs).drop p.ignored).length = p.buffer.length + xs.length - p.ignored := by
      rw [List.length_drop, List.length_append]
    rw [feed_of_le (k := p.buffer.length + xs.length + 1) hnear (by omega),
      feed_of_le (k := p.buffer.length + (xs ++ ys).length + 1) (by omega) (by omega), ← List.append_assoc,
      List.drop_append_of_le_length (by rwa [List.length_append]),
      drain_append (k := p.buffer.length + xs.length + 1) (by omega) (by omega)]

/-! ## What is left -/

/-- Nothing more can be read: no item is recognised, or the rest of one is ignored. -/
structure Quiet (P : Parser α β) (p : Pending α) : Prop where
  reading : p.ignored = 0 → P.parse p.buffer = none
  ignoring : p.ignored ≠ 0 → p.buffer = []

theorem drain_quiet {k : ℕ} {xs : List α} (h : xs.length < k) : P.Quiet (P.drain k xs).2 := by
  induction k generalizing xs with
  | zero => exact absurd h (Nat.not_lt_zero _)
  | succ k ih =>
      cases hp : P.parse xs with
      | none =>
          rw [drain_none hp]
          exact ⟨fun _ => hp, fun hne => absurd rfl hne⟩
      | some item =>
          obtain ⟨x, n⟩ := item
          have hpos := P.positive hp
          rcases Nat.lt_or_ge xs.length n with hn | hn
          · rw [drain_beyond hp hn]
            exact ⟨fun hzero => absurd hzero (Nat.sub_ne_zero_of_lt hn), fun _ => rfl⟩
          · have hdrop : (xs.drop n).length = xs.length - n := List.length_drop
            rw [drain_some hp hn]
            exact ih (by omega)

theorem feed_quiet (p : Pending α) (chunk : List α) : P.Quiet (P.feed p chunk).2 := by
  rcases Nat.lt_or_ge (p.buffer.length + chunk.length) p.ignored with hfar | hnear
  · rw [feed_of_lt hfar]
    exact ⟨fun hzero => absurd hzero (Nat.sub_ne_zero_of_lt hfar), fun _ => rfl⟩
  · rw [feed_of_le (k := p.buffer.length + chunk.length + 1) hnear (by omega)]
    apply drain_quiet
    rw [List.length_drop, List.length_append]
    omega

/-- A beginning that is long enough is recognised, so little is kept. -/
theorem Quiet.length_lt {p : Pending α} (h : P.Quiet p) {bound : ℕ} (hbound : 0 < bound)
    (hlong : ∀ xs, P.parse xs = none → xs.length < bound) : p.buffer.length < bound := by
  by_cases hzero : p.ignored = 0
  · exact hlong _ (h.reading hzero)
  · rw [h.ignoring hzero]
    exact hbound

/-! ## Encoded items -/

/-- A stream of encoded items is read as the items. -/
theorem feed_flatMap {encode : γ → List α} {item : γ → β} (hnil : P.parse [] = none)
    (h : ∀ g ys, P.parse (encode g ++ ys) = some (item g, (encode g).length)) (gs : List γ) :
    P.feed .empty (gs.flatMap encode) = (gs.map item, .empty) := by
  induction gs using List.reverseRecOn with
  | nil => exact drain_none (P := P) hnil
  | append_singleton gs g ih =>
      have hone : P.feed .empty (encode g) = ([item g], .empty) := by
        have hp : P.parse (encode g) = some (item g, (encode g).length) := by
          simpa only [List.append_nil] using h g []
        have hfeed : P.feed .empty (encode g) = P.drain ((encode g).length + 1) (encode g) :=
          feed_of_le (Nat.zero_le _) (by show 0 + _ < _ + 0; omega)
        rw [hfeed, drain_some hp (Nat.le_refl _), List.drop_length, drain_none hnil]
        rfl
      rw [List.flatMap_append, feed_append, ih, List.flatMap_singleton, hone, List.map_append]
      rfl

/-- What is recognised of a beginning of the stream is the first item. -/
theorem parse_part {encode : γ → List α} {item : γ → β}
    (h : ∀ g ys, P.parse (encode g ++ ys) = some (item g, (encode g).length)) {g : γ} {gs : List γ} {xs : List α}
    (hpart : xs <+: (g :: gs).flatMap encode) {x : β} {n : ℕ} (hp : P.parse xs = some (x, n)) :
    n = (encode g).length := by
  obtain ⟨more, hmore⟩ := hpart
  have hfirst := P.stable more hp
  rw [hmore, List.flatMap_cons, h] at hfirst
  exact (Prod.mk.inj (Option.some.inj hfirst)).2.symm

theorem drop_part {encode : γ → List α} {g : γ} {gs : List γ} {xs : List α}
    (hpart : xs <+: (g :: gs).flatMap encode) : xs.drop (encode g).length <+: gs.flatMap encode := by
  obtain ⟨more, hmore⟩ := hpart
  have hdrop := congrArg (List.drop (encode g).length) hmore
  rw [List.flatMap_cons, List.drop_left, List.drop_append] at hdrop
  exact ⟨_, hdrop⟩

/-- On a beginning of a stream of encoded items the loop stops between two of them, or in the rest of one that it
    ignores: with what is ignored gone, only whole items follow. -/
theorem drain_part {encode : γ → List α} {item : γ → β} (hnil : P.parse [] = none)
    (h : ∀ g ys, P.parse (encode g ++ ys) = some (item g, (encode g).length)) {gs : List γ} {k : ℕ} {xs : List α}
    (hk : xs.length < k) (hpart : xs <+: gs.flatMap encode) :
    ∃ gs', gs' ⊆ gs ∧ ∀ ys, xs ++ ys <+: gs.flatMap encode →
      ((P.drain k xs).2.buffer ++ ys).drop (P.drain k xs).2.ignored <+: gs'.flatMap encode := by
  induction gs generalizing k xs with
  | nil =>
      obtain rfl := List.prefix_nil.mp hpart
      refine ⟨[], List.Subset.refl _, fun ys hys => ?_⟩
      rw [drain_none hnil]
      exact hys
  | cons g gs ih =>
      obtain ⟨k, rfl⟩ := Nat.exists_eq_add_of_lt (Nat.zero_lt_of_lt hk)
      rw [Nat.zero_add] at hk ⊢
      cases hp : P.parse xs with
      -- The first item is not recognised yet, and all of it is kept.
      | none =>
          refine ⟨g :: gs, List.Subset.refl _, fun ys hys => ?_⟩
          rw [drain_none hp]
          exact hys
      | some found =>
          obtain ⟨x, n⟩ := found
          have hpos := P.positive hp
          obtain rfl := parse_part h hpart hp
          rcases Nat.lt_or_ge xs.length (encode g).length with hn | hn
          -- It goes beyond the beginning: the rest of it is ignored, and behind that come the other items.
          · refine ⟨gs, List.subset_cons_self g gs, fun ys hys => ?_⟩
            have hdrop := drop_part hys
            rw [List.drop_append, List.drop_eq_nil_of_le (Nat.le_of_lt hn), List.nil_append] at hdrop
            rw [drain_beyond hp hn]
            exact hdrop
          · have hlen : (xs.drop (encode g).length).length = xs.length - (encode g).length := List.length_drop
            obtain ⟨gs', hsub, hrest⟩ := @ih k (xs.drop (encode g).length) (by omega) (drop_part hpart)
            refine ⟨gs', fun _ hmem => List.mem_cons_of_mem g (hsub hmem), fun ys hys => ?_⟩
            rw [drain_some hp hn]
            apply hrest
            have hdrop := drop_part hys
            rwa [List.drop_append_of_le_length hn] at hdrop

/-- No item that the loop comes across there is longer than the encoded ones. -/
theorem within_part {encode : γ → List α} {item : γ → β} (hnil : P.parse [] = none)
    (h : ∀ g ys, P.parse (encode g ++ ys) = some (item g, (encode g).length)) {bound : ℕ} {gs : List γ}
    (hbound : ∀ g ∈ gs, (encode g).length < bound) {xs : List α} (hpart : xs <+: gs.flatMap encode) (k : ℕ) :
    P.within bound k xs = true := by
  induction gs generalizing k xs with
  | nil =>
      obtain rfl := List.prefix_nil.mp hpart
      cases k with
      | zero => rfl
      | succ k => rw [within, hnil]
  | cons g gs ih =>
      cases k with
      | zero => rfl
      | succ k =>
          cases hp : P.parse xs with
          | none => rw [within, hp]
          | some found =>
              obtain ⟨x, n⟩ := found
              obtain rfl := parse_part h hpart hp
              have hlt := hbound g List.mem_cons_self
              have hrest := ih (fun g' hg' => hbound g' (List.mem_cons_of_mem g hg')) (drop_part hpart) k
              simp only [within, hp, hlt, hrest, decide_true, Bool.or_true, Bool.and_true]

/-! ## Handling -/

/-- The same loop with something done to each item. `false` leaves the loop at once, with the item and what
    is behind it still in the buffer. -/
def drive (P : Parser α β) (handle : σ → β → σ × Bool) : ℕ → σ → List α → (σ × Bool) × Pending α
  | 0, s, xs => ((s, true), ⟨xs, 0⟩)
  | k + 1, s, xs =>
      match P.parse xs with
      | none => ((s, true), ⟨xs, 0⟩)
      | some (x, n) =>
          match handle s x with
          | (s, false) => ((s, false), ⟨xs, 0⟩)
          | (s, true) =>
              if xs.length < n then ((s, true), ⟨[], n - xs.length⟩) else drive P handle k s (xs.drop n)

/-- Handle items one after the other, until one is refused. -/
def handleAll (handle : σ → β → σ × Bool) : σ → List β → σ × Bool
  | s, [] => (s, true)
  | s, x :: items =>
      match handle s x with
      | (s, false) => (s, false)
      | (s, true) => handleAll handle s items

theorem drive_fst (handle : σ → β → σ × Bool) (k : ℕ) (s : σ) (xs : List α) :
    (P.drive handle k s xs).1 = handleAll handle s (P.drain k xs).1 := by
  induction k generalizing s xs with
  | zero => rfl
  | succ k ih =>
      cases hp : P.parse xs with
      | none => rw [drain_none hp, drive, hp]; rfl
      | some item =>
          obtain ⟨x, n⟩ := item
          rcases Nat.lt_or_ge xs.length n with hn | hn
          · rw [drain_beyond hp hn, drive, hp]
            simp only [handleAll, if_pos hn]
            split <;> rfl
          · rw [drain_some hp hn, drive, hp]
            simp only [handleAll, if_neg (Nat.not_lt.mpr hn)]
            split
            · rfl
            · exact ih _ _

theorem drive_snd {handle : σ → β → σ × Bool} {k : ℕ} {s : σ} {xs : List α}
    (h : (P.drive handle k s xs).1.2 = true) : (P.drive handle k s xs).2 = (P.drain k xs).2 := by
  induction k generalizing s xs with
  | zero => rfl
  | succ k ih =>
      cases hp : P.parse xs with
      | none => rw [drain_none hp, drive, hp]
      | some item =>
          obtain ⟨x, n⟩ := item
          rcases Nat.lt_or_ge xs.length n with hn | hn
          · rw [drive, hp] at h ⊢
            simp only [if_pos hn] at h ⊢
            rw [drain_beyond hp hn]
            split at h
            · cases h
            · rfl
          · rw [drive, hp] at h ⊢
            simp only [if_neg (Nat.not_lt.mpr hn)] at h ⊢
            rw [drain_some hp hn]
            split at h
            · cases h
            · exact ih h

end Parser

end Incremental
