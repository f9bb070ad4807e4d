import WebrtcStreamer.Relay.Registry

/-!
# `Relay.Routability` — whether an open connection can be reached under its id

The registry has room for one connection under an id, the one established last. When that one closes, the
entry goes, and an older connection with the same path, still open, is not put back. `routable_iff` says that
there is no other way for an id with an open connection to lose its entry.
-/

namespace WebrtcStreamer

namespace Relay

open Transition

variable {C : Codec}

/-- While a connection established for `X` is open, the entry under `X` points to one. -/
def Routable (X : Bytes) (s : State) : Prop :=
  (∃ wsi, s.conns.lookup wsi = some (some X)) →
    ∃ client, s.clients.lookup X = some client ∧ s.conns.lookup client.wsi = some (some X)

/-- The event closes the connection that is registered under `X` while another one established for `X` is
    open. -/
def Abandons (X : Bytes) (s : State) (e : Event) : Prop :=
  ∃ wsi, e = .closed wsi ∧ (∃ client, s.clients.lookup X = some client ∧ client.wsi = wsi) ∧
    ∃ other, other ≠ wsi ∧ s.conns.lookup other = some (some X)

theorem routable_init (X : Bytes) : Routable X init := by
  rintro ⟨wsi, h⟩
  rw [init, AList.lookup_empty] at h
  exact absurd h (by simp)

/-- **One event** keeps `X` routable exactly if it does not abandon it. -/
theorem routable_step {s s' : State} {e : Event} {X : Bytes} (hr : Routable X s)
    (h : step C s e = some s') : Routable X s' ↔ ¬ Abandons X s e := by
  cases step_cases h with
  | @established wsi uri data hw =>
      refine ⟨fun _ ⟨_, he, _⟩ => absurd he (by simp), fun _ => ?_⟩
      rintro ⟨w, hopen⟩
      change (s.conns.insert wsi (clientId uri)).lookup w = some (some X) at hopen
      show ∃ client, (established s.clients wsi uri).lookup X = some client ∧
        (s.conns.insert wsi (clientId uri)).lookup client.wsi = some (some X)
      rw [lookup_established]
      by_cases hX : clientId uri = some X
      · -- the new connection is the one that is registered
        rw [if_pos hX]
        refine ⟨_, rfl, ?_⟩
        rw [AList.lookup_insert, hX]
      · rw [if_neg hX]
        have hne : w ≠ wsi := by
          rintro rfl
          rw [AList.lookup_insert] at hopen
          exact hX (Option.some.inj hopen)
        rw [AList.lookup_insert_ne hne] at hopen
        obtain ⟨client, hclient, hconn⟩ := hr ⟨w, hopen⟩
        have hold : client.wsi ≠ wsi := by
          rintro rfl
          rw [AList.lookup_eq_none.mpr hw] at hconn
          exact absurd hconn (by simp)
        refine ⟨client, hclient, ?_⟩
        rw [AList.lookup_insert_ne hold]
        exact hconn
  | receive _ => exact ⟨fun _ ⟨_, he, _⟩ => absurd he (by simp), fun _ => hr⟩
  | reorder hp =>
      refine ⟨fun _ ⟨_, he, _⟩ => absurd he (by simp), fun _ hopen => ?_⟩
      obtain ⟨client, hclient, hconn⟩ := hr hopen
      exact ⟨client, (AList.perm_lookup hp).trans hclient, hconn⟩
  | @closed wsi hw =>
      constructor
      · rintro hr' ⟨wsi', he, ⟨client, hclient, hwsi⟩, other, hne, hother⟩
        obtain rfl := Event.closed.inj he
        -- the only entry under `X` goes with its connection
        have hopen : (s.conns.erase wsi).lookup other = some (some X) := by
          rw [AList.lookup_erase_ne hne]
          exact hother
        obtain ⟨client', hclient', -⟩ := hr' ⟨other, hopen⟩
        obtain ⟨hl, hne'⟩ := lookup_closed.mp hclient'
        obtain rfl := Option.some.inj (hclient.symm.trans hl)
        exact hne' hwsi
      · intro hno
        rintro ⟨w, hopen⟩
        change (s.conns.erase wsi).lookup w = some (some X) at hopen
        have hne : w ≠ wsi := by
          rintro rfl
          rw [AList.lookup_erase] at hopen
          exact absurd hopen (by simp)
        rw [AList.lookup_erase_ne hne] at hopen
        obtain ⟨client, hclient, hconn⟩ := hr ⟨w, hopen⟩
        have hkept : client.wsi ≠ wsi := by
          intro hwsi
          exact hno ⟨wsi, rfl, ⟨client, hclient, hwsi⟩, w, hne, hopen⟩
        refine ⟨client, lookup_closed.mpr ⟨hclient, hkept⟩, ?_⟩
        show (s.conns.erase wsi).lookup client.wsi = some (some X)
        rw [AList.lookup_erase_ne hkept]
        exact hconn

/-- **Routability, exactly.** In every run and for every id `X`: after every event the entry under `X` points
    to an open connection established for `X`, if there is any, if and only if the connection registered
    under `X` is never closed while another one established for `X` is open. -/
theorem routable_iff {es : List Event} {s : State} (h : exec (step C) init es = some s) (X : Bytes) :
    Always (step C) (fun s e => ∀ s', step C s e = some s' → Routable X s') init es ↔
      Always (step C) (fun s e => ¬ Abandons X s e) init es := by
  -- a step needs no invariant beside routability itself
  apply always_keeps_iff (I := fun _ => True) ?_ ?_ es init s trivial (routable_init X) h
  · intro s e s' _ _
    trivial
  · intro s e s' _ hr hst
    exact routable_step hr hst

/-- The event closes the connection that is registered under `X`. -/
def closesHolder (X : Bytes) (s : State) : Event → Bool
  | .closed wsi => (s.clients.lookup X).any fun client => client.wsi == wsi
  | _ => false

/-- A peer takes over `b` and the older connection closes: `b` stays routable. -/
theorem routable_iff_takeover :
    Always (step JsonText.text)
      (fun s e => ∀ s', step JsonText.text s e = some s' → Routable (str "b") s') init
      [.established 1 (str "/b") [], .established 2 (str "/b") [], .closed 1] := by
  have hrun : ∃ s, exec (step JsonText.text) init
      [.established 1 (str "/b") [], .established 2 (str "/b") [], .closed 1] = some s := by
    apply Option.isSome_iff_exists.mp
    decide +kernel
  obtain ⟨s, hs⟩ := hrun
  apply (routable_iff hs (str "b")).mpr
  refine always_of_check (p := fun s e => !closesHolder (str "b") s e) ?_ _ _ (by decide +kernel)
  rintro s e hkept ⟨wsi, rfl, ⟨client, hclient, hwsi⟩, -⟩
  simp [closesHolder, hclient, hwsi] at hkept

/-- The streamer is connected as `server`; another connection takes the id and closes. -/
theorem server_unreachable :
    ∃ s ∈ exec (step JsonText.text) init
        [.established 1 (str "/server") [], .established 2 (str "/server") [], .closed 2],
      s.conns.lookup 1 = some (some (str "server")) ∧ s.clients.lookup (str "server") = none ∧
        ¬ Routable (str "server") s := by
  have hrun : ∃ s ∈ exec (step JsonText.text) init
      [.established 1 (str "/server") [], .established 2 (str "/server") [], .closed 2],
      s.conns.lookup 1 = some (some (str "server")) ∧ s.clients.lookup (str "server") = none := by
    decide +kernel
  obtain ⟨s, hs, hopen, hnone⟩ := hrun
  refine ⟨s, hs, hopen, hnone, fun hr => ?_⟩
  obtain ⟨client, hclient, -⟩ := hr ⟨1, hopen⟩
  exact absurd (hnone.symm.trans hclient) (by simp)

end Relay

end WebrtcStreamer
