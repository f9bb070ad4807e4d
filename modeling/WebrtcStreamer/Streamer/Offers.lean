import WebrtcStreamer.Streamer.TrustBoundary

/-!
# `Streamer.Offers` — what a request gets

A client makes one offer, once its gathering is complete. So a request is answered if the client that is
registered under its id afterwards has not sent its offer yet. `inputMessageHandler` constructs a client for
every request, but `SafeUMap::emplace` keeps the one that is registered already, and nobody looks at what it
returns: a second request under an id gets an offer only if the first one still waits for it.
-/

namespace WebrtcStreamer

namespace Streamer

open Transition Json

variable {ι : Type} {C : Codec}

/-! ## Histories -/

/-- The client of a message that is an offer. -/
def offerer (C : Codec) (e : Bytes × Source ι) : Option ClientRef :=
  match (safeParse C e.1).bind fun jsonMsg => stringMember jsonMsg (str "type") with
  | some type => if type = DescriptionType.offer.typeString then e.2.client? else none
  | none => none

/-- A client whose offer is sent on the WebSocket. -/
def offered (C : Codec) (s : State ι) : Action ι → List ClientRef
  | .loop (.send false) => (sent s (.loop (.send false))).filterMap (offerer C)
  | _ => []

/-- An offer that has been sent was sent by the loop. -/
theorem mem_offered {as : List (Action ι)} {s : State ι} (h : exec (step C) (init ι) as = some s) :
    ∀ d ∈ shown C (offered C) as, ∃ e ∈ shown C sent as, e.2 = .client d := by
  refine trace_induction
    (P := fun as (d : ClientRef) => ∃ e ∈ shown C sent as, e.2 = .client d) ?_ ?_ as s h
  · intro as s a s' has _ d hd
    unfold offered at hd
    split at hd
    · obtain ⟨e, he, hofferer⟩ := List.mem_filterMap.mp hd
      have hsource : e.2 = .client d := by
        unfold offerer at hofferer
        split at hofferer
        · split at hofferer
          · cases hsource : e.2 with
            | client d' =>
                rw [hsource] at hofferer
                rw [Option.some.inj hofferer]
            | inbound tag data =>
                rw [hsource] at hofferer
                exact absurd hofferer (by simp [Source.client?])
          · exact absurd hofferer (by simp)
        · exact absurd hofferer (by simp)
      refine ⟨e, ?_, hsource⟩
      simp only [shown, trace_snoc has]
      exact List.mem_append_right _ he
    · exact absurd hd (by simp)
  · rintro as s a d has ⟨e, he, hsource⟩
    refine ⟨e, ?_, hsource⟩
    simp only [shown, trace_snoc has]
    exact List.mem_append_left _ he

/-- A client that has never been registered has not sent its offer. -/
theorem not_offered_of_fresh {as : List (Action ι)} {s : State ι} {c : ClientRef}
    (h : exec (step C) (init ι) as = some s) (hfresh : Fresh s c) : c ∉ shown C (offered C) as := by
  intro hc
  obtain ⟨e, he, hsource⟩ := mem_offered h c hc
  obtain ⟨id, item, hitem, hitemSource, -⟩ := sent_handled h e he
  obtain ⟨htaken, -⟩ := mem_handled h _ hitem
  obtain ⟨m, hcollected⟩ := collected_of_taken h htaken (hitemSource.trans hsource)
  exact not_collected_of_fresh h hfresh _ hcollected (hitemSource.trans hsource)

/-! ## Until the loop goes on to its next message -/

/-- The loop has dealt with its message, the destruction of the temporary aside. -/
def Loop.Dealt : Loop ι → Prop
  | .top | .destroying _ => True
  | _ => False

/-- A step before the loop checks `_do_term` again. -/
theorem dealt_step {s s' : State ι} {a : Action ι} (hs : Sane s) (hl : s.loop.Dealt) (ha : a ≠ .loop .check)
    (h : step C s a = some s') :
    s'.loop.Dealt ∧ s'.clientsMap = s.clientsMap ∧ offered C s a = [] := by
  by_cases hloop : ∃ b, a = .loop b
  · obtain ⟨b, rfl⟩ := hloop
    cases (step_cases h).2 with
    | loop h =>
        cases h with
        | checked _ => exact absurd rfl ha
        | @destroyed c client client' hpc _ _ =>
            refine ⟨?_, rfl, rfl⟩
            show Loop.Dealt (if client'.lifetime = .destroyed then Loop.top else .destroying c)
            split <;> trivial
        | stopped hpc _ | popped hpc _ _ | threw hpc _ _ | emplaced hpc _ _ | discarded hpc _ _ _
        | absent hpc _ _ | erased hpc _ _ _ | answered hpc _ _ | sent hpc | sendThrew hpc | joined hpc _ =>
            rw [hpc] at hl
            exact absurd hl (by simp [Loop.Dealt])
  · have hother : ∀ b, a ≠ .loop b := fun b hb => hloop ⟨b, hb⟩
    refine ⟨?_, ?_, ?_⟩
    · rw [loop_kept h hother]
      exact hl
    · by_cases hdestructor : a = .destructor
      · subst hdestructor
        cases (step_cases h).2 with
        | destructor h =>
            cases h with
            | released hpc _ _ =>
                -- the destructor has joined the loop by then
                have hdone := hs.signalingJoined (by rw [hpc]; rfl)
                rw [hdone] at hl
                exact absurd hl (by simp [Loop.Dealt])
            | started _ | signalingStopped _ | webSocketClosed _ | signalingJoined _ _ | framesStopped _
            | multimediaJoined _ _ | finished _ _ | destroyed _ _ _ => rfl
      · exact clientsMap_kept h ⟨hother _, hother _⟩ hdestructor
    · unfold offered
      split
      · exact absurd rfl (hother _)
      · rfl

theorem dealt_exec : ∀ (as : List (Action ι)) (s t : State ι), Sane s → s.loop.Dealt →
    (∀ a ∈ as, a ≠ .loop .check) → exec (step C) s as = some t →
    t.clientsMap = s.clientsMap ∧ trace (step C) (offered C) s as = [] := by
  intro as
  induction as with
  | nil =>
      intro s t _ _ _ h
      rw [Option.some.inj h]
      exact ⟨rfl, rfl⟩
  | cons a as ih =>
      intro s t hs hl has h
      obtain ⟨s', hst, hrest⟩ := exec_cons_some.mp h
      obtain ⟨hl', hmap, hnone⟩ := dealt_step hs hl (has a List.mem_cons_self) hst
      obtain ⟨hmap', hnone'⟩ :=
        ih s' t (sane_step hs hst) hl' (fun b hb => has b (List.mem_cons_of_mem _ hb)) hrest
      rw [trace_cons hst, hnone, hnone', hmap', hmap]
      exact ⟨rfl, rfl⟩

/-- What `emplace` does to the registry. -/
theorem emplace_lookup {s s' : State ι} {X : Bytes} {c : ClientRef} {source : Source ι}
    (hpc : s.loop = .emplacing X c source) (h : step C s (.loop .emplace) = some s') :
    s'.loop.Dealt ∧ ∀ d, s'.clientsMap.lookup X = some d ↔
      s.clientsMap.lookup X = some d ∨ (X ∉ s.clientsMap ∧ d = c) := by
  cases (step_cases h).2 with
  | loop h =>
      cases h with
      | emplaced hpc' _ hno =>
          obtain ⟨rfl, rfl, -⟩ := Loop.emplacing.inj (hpc.symm.trans hpc')
          refine ⟨trivial, ?_⟩
          intro d
          have hnone : s.clientsMap.lookup X = none := AList.lookup_eq_none.mpr hno
          rw [AList.lookup_insert, hnone]
          constructor
          · intro hd
            exact .inr ⟨hno, (Option.some.inj hd).symm⟩
          · rintro (hd | ⟨-, rfl⟩)
            · exact absurd hd (by simp)
            · rfl
      | discarded hpc' _ hid _ =>
          obtain ⟨rfl, rfl, -⟩ := Loop.emplacing.inj (hpc.symm.trans hpc')
          refine ⟨trivial, ?_⟩
          intro d
          constructor
          · intro hd
            exact .inl hd
          · rintro (hd | ⟨hno, -⟩)
            · exact hd
            · exact absurd hid hno

/-- **Requests and offers, exactly.** A run in which the loop handles a request for `X` and has not gone on to
    its next message: the client registered under `X` is one whose offer has not been sent, if and only if,
    when the request was handled, nobody was registered under `X` or the offer of the one who was had not been
    sent. -/
theorem request_offer_iff {pre post : List (Action ι)} {s t : State ι} {X : Bytes} {c : ClientRef}
    {source : Source ι} (hpre : exec (step C) (init ι) pre = some s) (hpc : s.loop = .emplacing X c source)
    (hpost : exec (step C) s (.loop .emplace :: post) = some t) (hsame : ∀ a ∈ post, a ≠ .loop .check) :
    (∃ d, t.clientsMap.lookup X = some d ∧ d ∉ shown C (offered C) (pre ++ .loop .emplace :: post)) ↔
      (X ∉ s.clientsMap ∨ ∃ d, s.clientsMap.lookup X = some d ∧ d ∉ shown C (offered C) pre) := by
  have hs : Sane s := exec_sane hpre
  obtain ⟨s', hst, hrest⟩ := exec_cons_some.mp hpost
  obtain ⟨hdealt, hlookup⟩ := emplace_lookup hpc hst
  obtain ⟨hmap, hnone⟩ := dealt_exec post s' t (sane_step hs hst) hdealt hsame hrest
  have hoffers : shown C (offered C) (pre ++ .loop .emplace :: post) = shown C (offered C) pre := by
    rw [shown, trace_append hpre, trace_cons hst, hnone]
    exact List.append_nil _
  rw [hmap, hoffers]
  constructor
  · rintro ⟨d, hd, hunsent⟩
    rcases (hlookup d).mp hd with hd | ⟨hno, -⟩
    · exact .inr ⟨d, hd, hunsent⟩
    · exact .inl hno
  · rintro (hno | ⟨d, hd, hunsent⟩)
    · refine ⟨c, (hlookup c).mpr (.inr ⟨hno, rfl⟩), ?_⟩
      exact not_offered_of_fresh hpre (.inr ⟨X, source, hpc⟩)
    · exact ⟨d, (hlookup d).mpr (.inl hd), hunsent⟩

/-! ## A session that is resumed -/

/-- A first request for `b`, up to `emplace`. -/
def firstRequest : List (Action Unit) :=
  [.onMessage (.receive () (.text (str "\x7b\"id\":\"b\",\"type\":\"request\"\x7d"))), .onMessage .push,
    .loop .check, .loop .pop]

theorem request_offer_iff_first :
    ∃ t ∈ exec (step JsonText.text) (init Unit) (firstRequest ++ [.loop .emplace]),
      ∃ d, t.clientsMap.lookup (str "b") = some d ∧
        d ∉ shown JsonText.text (offered JsonText.text) (firstRequest ++ [.loop .emplace]) := by
  have hrun : ∃ s ∈ exec (step JsonText.text) (init Unit) firstRequest,
      (∃ source ∈ s.loop.source, s.loop = .emplacing (str "b") 0 source) ∧ str "b" ∉ s.clientsMap ∧
        (exec (step JsonText.text) s [.loop .emplace]).isSome := by decide +kernel
  obtain ⟨s, hs, ⟨source, -, hpc⟩, hno, hnext⟩ := hrun
  obtain ⟨t, ht⟩ := Option.isSome_iff_exists.mp hnext
  exact ⟨t, exec_append_some.mpr ⟨s, hs, ht⟩, (request_offer_iff hs hpc ht (by simp)).mpr (.inl hno)⟩

/-- The client makes its offer, and the loop sends it. -/
def offerSent : List (Action Unit) :=
  [.loop .emplace, .client 0 (.gatheringStateChange .complete .offer (str "v=0")), .client 0 (.push 0),
    .collector .check, .collector (.lock [⟨str "b", 0⟩]), .collector (.get false), .collector .push,
    .collector .unlock, .loop .check, .loop .pop, .loop (.send false)]

/-- The request comes again: the new client is discarded, and the one that stays has no offer left. -/
theorem second_request_unanswered :
    ∃ s ∈ exec (step JsonText.text) (init Unit)
        (firstRequest ++ offerSent ++ firstRequest ++
          [.loop .emplace, .loop .destroy, .loop .destroy, .loop .destroy, .loop .destroy, .client 1 .check,
            .loop .destroy]),
      s.loop = .top ∧ s.clientsMap.lookup (str "b") = some 0 ∧
        0 ∈ shown JsonText.text (offered JsonText.text) (firstRequest ++ offerSent) := by
  decide +kernel

end Streamer

end WebrtcStreamer
