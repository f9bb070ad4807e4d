import WebrtcStreamer.Streamer.Invariant

/-!
# `Streamer.Lifetimes` — from the construction of a client to its end

A client is constructed for a request, may get an entry in the registry, and may lose it again; it never
gets a second one. `Fresh` and `Ending` say on which side of its registration it is, `registry_step` and
`ending_step` that no step leads back.
-/

namespace WebrtcStreamer

namespace Streamer

open Transition

variable {ι : Type} {C : Codec}

/-- What the steps of a run from the start show. -/
abbrev shown (C : Codec) {B : Type} (f : State ι → Action ι → List B) (as : List (Action ι)) : List B :=
  trace (step C) f (init ι) as

/-! ## Registration -/

/-- The registry has an entry for `c`. -/
def Visits (c : ClientRef) (m : ClientsMap) : Prop := c ∈ m.entries.map Sigma.snd

instance (c : ClientRef) (m : ClientsMap) : Decidable (Visits c m) :=
  inferInstanceAs (Decidable (c ∈ m.entries.map Sigma.snd))

theorem visits_iff {c : ClientRef} {m : ClientsMap} : Visits c m ↔ ∃ X, m.lookup X = some c := by
  unfold Visits
  rw [List.mem_map]
  constructor
  · rintro ⟨⟨X, d⟩, he, rfl⟩
    exact ⟨X, AList.mem_lookup_iff.mpr he⟩
  · rintro ⟨X, h⟩
    exact ⟨⟨X, c⟩, AList.mem_lookup_iff.mp h, rfl⟩

/-- The other clients stay registered when an entry is erased. -/
theorem Visits.erase {c : ClientRef} {m : ClientsMap} {X : Bytes} (hv : Visits c m) (hX : m.lookup X ≠ some c) :
    Visits c (m.erase X) := by
  obtain ⟨Y, hY⟩ := visits_iff.mp hv
  have hne : Y ≠ X := by
    rintro rfl
    exact hX hY
  apply visits_iff.mpr
  exact ⟨Y, by rw [AList.lookup_erase_ne hne]; exact hY⟩

/-- All clients stay registered when an entry is added under an id that had none. -/
theorem Visits.insert {c d : ClientRef} {m : ClientsMap} {X : Bytes} (hv : Visits c m) (hX : X ∉ m) :
    Visits c (m.insert X d) := by
  obtain ⟨Y, hY⟩ := visits_iff.mp hv
  have hne : Y ≠ X := by
    rintro rfl
    exact hX (AList.lookup_isSome.mp (by rw [hY]; rfl))
  apply visits_iff.mpr
  exact ⟨Y, by rw [AList.lookup_insert_ne hne]; exact hY⟩

/-- No client is registered twice. -/
theorem Sane.nodup_clients {s : State ι} (hs : Sane s) : (s.clientsMap.entries.map Sigma.snd).Nodup := by
  have hentries : s.clientsMap.entries.Nodup := List.nodupKeys_iff_pairwise.mp s.clientsMap.nodupKeys |>.imp (by
    rintro a b hne rfl
    exact hne rfl)
  refine List.Nodup.map_on ?_ hentries
  rintro ⟨X, d⟩ hX ⟨Y, d'⟩ hY heq
  have hdd : d = d' := heq
  subst hdd
  have hlX := hs.registered X d (AList.mem_lookup_iff.mpr hX)
  have hlY := hs.registered Y d (AList.mem_lookup_iff.mpr hY)
  rw [hlX.id_unique hlY]

/-- `c` is not constructed yet, or not registered yet. -/
def Fresh (s : State ι) (c : ClientRef) : Prop :=
  s.clients.length ≤ c ∨ ∃ id source, s.loop = .emplacing id c source

/-- A fresh client is not registered. -/
theorem Sane.not_visits_of_fresh {s : State ι} (hs : Sane s) {c : ClientRef} (hf : Fresh s c) :
    ¬ Visits c s.clientsMap := by
  rw [visits_iff]
  rintro ⟨X, hX⟩
  rcases hf with hlen | ⟨id, source, hpc⟩
  · obtain ⟨k, hk, -⟩ := hs.registered X c hX
    rw [List.getElem?_eq_none hlen] at hk
    exact absurd hk (by simp)
  · exact (hs.emplacing id c source hpc).2 X hX

/-- **The registry between two states**: a client that is registered afterwards was so before or was fresh,
    and one that is fresh afterwards was so before. -/
theorem registry_step {s s' : State ι} {a : Action ι} (h : step C s a = some s') (c : ClientRef) :
    (Visits c s'.clientsMap → Visits c s.clientsMap ∨ Fresh s c) ∧ (Fresh s' c → Fresh s c) := by
  have hsame : ∀ {t : State ι}, Fresh t c → s.clients.length = t.clients.length →
      (∀ id d source, t.loop = .emplacing id d source → s.loop = .emplacing id d source) → Fresh s c := by
    intro t hfr hlen hloop
    rcases hfr with hle | ⟨id, source, hpc⟩
    · exact .inl (hlen ▸ hle)
    · exact .inr ⟨id, source, hloop id c source hpc⟩
  have herase : ∀ {X : Bytes}, Visits c (s.clientsMap.erase X) → Visits c s.clientsMap := by
    intro X hv
    rw [visits_iff] at hv ⊢
    obtain ⟨Y, hY⟩ := hv
    exact ⟨Y, (lookup_of_erase hY).2⟩
  cases (step_cases h).2 with
  | onMessage h => cases h <;> exact ⟨.inl, fun hf => hf⟩
  | collector h =>
      cases h with
      | got _ _ _ => exact ⟨.inl, fun hf => hsame hf List.length_set.symm fun _ _ _ h => h⟩
      | checked _ | locked _ _ _ | passed _ _ _ | pushed _ _ | unlocked _ => exact ⟨.inl, fun hf => hf⟩
  | multimedia h =>
      obtain ⟨m, q, f, rfl⟩ := stepMultimedia_frame h
      exact ⟨.inl, fun hf => hf⟩
  | pushData h =>
      obtain ⟨cs, p, q, rfl⟩ := stepPushData_frame h
      exact ⟨.inl, fun hf => hf⟩
  | client _ _ => exact ⟨.inl, fun hf => hsame hf List.length_set.symm fun _ _ _ h => h⟩
  | destructor h =>
      cases h with
      | released _ _ _ =>
          exact ⟨fun hv => .inl (herase hv), fun hf => hsame hf List.length_set.symm fun _ _ _ h => h⟩
      | destroyed _ _ _ => exact ⟨.inl, fun hf => hsame hf List.length_set.symm fun _ _ _ h => h⟩
      | started _ | signalingStopped _ | webSocketClosed _ | signalingJoined _ _ | framesStopped _
      | multimediaJoined _ _ | finished _ => exact ⟨.inl, fun hf => hf⟩
  | loop h =>
      cases h with
      | checked _ =>
          refine ⟨.inl, fun hf => hsame hf rfl fun id d source h => ?_⟩
          change (if s.doTerm then Loop.joining else .polling) = _ at h
          split at h <;> exact absurd h (by simp)
      | stopped _ | absent _ _ _ | sent _ | joined _ _ => exact ⟨.inl, fun hf => hsame hf rfl (by simp)⟩
      | threw _ _ _ | sendThrew _ => exact ⟨.inl, fun hf => hf⟩
      | @popped item q verdict _ _ _ =>
          cases verdict with
          | skip | answer _ _ | erase _ | send _ => exact ⟨.inl, fun hf => hsame hf rfl (by simp [dispatch])⟩
          | request id =>
              refine ⟨.inl, fun hf => ?_⟩
              rcases hf with hle | ⟨id', source, hpc⟩
              · change (s.clients ++ [Client.new id]).length ≤ c at hle
                rw [List.length_append, List.length_singleton] at hle
                exact .inl (by omega)
              · -- the new client is the next one
                obtain ⟨-, hc, -⟩ := Loop.emplacing.inj hpc
                exact .inl (Nat.le_of_eq hc)
      | @emplaced id d source hpc _ _ =>
          refine ⟨fun hv => ?_, fun hf => hsame hf rfl (by simp)⟩
          obtain ⟨X, hX⟩ := visits_iff.mp hv
          rcases lookup_of_insert hX with ⟨-, rfl⟩ | hX
          · exact .inr (.inr ⟨id, source, hpc⟩)
          · exact .inl (visits_iff.mpr ⟨X, hX⟩)
      | discarded _ _ _ _ => exact ⟨.inl, fun hf => hsame hf List.length_set.symm (by simp)⟩
      | erased _ _ _ _ => exact ⟨fun hv => .inl (herase hv), fun hf => hsame hf List.length_set.symm (by simp)⟩
      | answered _ _ _ => exact ⟨.inl, fun hf => hsame hf List.length_set.symm (by simp)⟩
      | @destroyed d client client' _ _ _ =>
          refine ⟨.inl, fun hf => hsame hf List.length_set.symm fun id e source h => ?_⟩
          change (if client'.lifetime = .destroyed then Loop.top else .destroying d) = _ at h
          split at h <;> exact absurd h (by simp)

/-- `c` is constructed and has no entry, and is not about to get one. -/
def Gone (s : State ι) (c : ClientRef) : Prop := ¬ Visits c s.clientsMap ∧ ¬ Fresh s c

/-- **No second registration.** What has left the registry stays outside. -/
theorem gone_step {s s' : State ι} {a : Action ι} {c : ClientRef} (h : step C s a = some s')
    (hg : Gone s c) : Gone s' c := by
  obtain ⟨hvisits, hfresh⟩ := registry_step h c
  constructor
  · intro hv
    rcases hvisits hv with hv | hf
    · exact hg.1 hv
    · exact hg.2 hf
  · intro hf
    exact hg.2 (hfresh hf)

/-- A client that was registered and is not any more. -/
theorem gone_of_removed {s t : State ι} {as : List (Action ι)} {c : ClientRef} (hs : Sane s)
    (hv : Visits c s.clientsMap) (h : exec (step C) s as = some t) (hremoved : ¬ Visits c t.clientsMap) :
    Gone t c := by
  refine ⟨hremoved, ?_⟩
  -- nothing becomes fresh again
  refine exec_invariant (I := fun u => ¬ Fresh u c) ?_ ?_ as t h
  · intro hf
    exact hs.not_visits_of_fresh hf hv
  · intro u a u' hu hst hf
    exact hu ((registry_step hst c).2 hf)

/-! ## The end of a client -/

/-- The destruction of `c` has begun. -/
def Ending (clients : List Client) (c : ClientRef) : Prop :=
  ∃ k, clients[c]? = some k ∧ k.lifetime ≠ .live

theorem Live.not_ending {clients : List Client} {c : ClientRef} {X : Bytes} (h : Live clients c X) :
    ¬ Ending clients c := by
  rintro ⟨k, hk, hl⟩
  obtain ⟨k', hk', -, hl'⟩ := h
  obtain rfl := Option.some.inj (hk.symm.trans hk')
  exact hl hl'

/-- It never comes back to life. -/
theorem ending_step {s s' : State ι} {a : Action ι} {c : ClientRef} (h : step C s a = some s')
    (he : Ending s.clients c) : Ending s'.clients c := by
  obtain ⟨k, hk, hl⟩ := he
  have hchange := client_change h c
  rw [hk] at hchange
  unfold Ending
  generalize s'.clients[c]? = o at hchange ⊢
  cases hchange with
  | kept _ => exact ⟨k, rfl, hl⟩
  | collected _ _ | answered _ _ => exact ⟨_, rfl, hl⟩
  | released _ => exact ⟨_, rfl, by simp⟩
  | destroyed _ hd => exact ⟨_, rfl, (destroy_cases hd).2.1⟩
  | moved hc => cases hc <;> exact ⟨_, rfl, hl⟩

end Streamer

end WebrtcStreamer
