import WebrtcStreamer.Streamer.Collection

/-!
# `Streamer.TrustBoundary` — what a remote peer cannot do

The two directions share a queue, and `io_mode` decides which handler gets a message. `outputMessageHandler`
erases clients and sends texts to the signaling server; a remote peer must not get there, whatever it writes
into its messages.

`trust_boundary` says that only the clients do: each message that `outputMessageHandler` gets was pushed by a
callback of a client that had an entry under the message's own id when the collector took it.
-/

namespace WebrtcStreamer

namespace Streamer

open Transition Json

variable {ι : Type}

/-! ## Histories -/

/-- A member of an object that is a string. -/
def stringMember (j : Json) (key : Bytes) : Option Bytes :=
  match j.find key with
  | some (.string s) => some s
  | _ => none

/-- The id with which the loop calls `outputMessageHandler` for this text, if it does. -/
def outputId (C : Codec) (text : Bytes) : Option Bytes := do
  let jsonMsg ← safeParse C text
  let ioMode ← stringMember jsonMsg (str "io_mode")
  let id ← stringMember jsonMsg (str "id")
  let _ ← stringMember jsonMsg (str "type")
  if ioMode = str "input" then none else some id

/-- A message that reaches `outputMessageHandler`, with its id. -/
def handled (C : Codec) (s : State ι) (a : Action ι) : List (Bytes × Item ι) :=
  (taken s a).filterMap fun item => (outputId C item.text).map fun id => (id, item)

/-- A call of `_clientsMap.erase`. -/
def erased (s : State ι) : Action ι → List (Bytes × Source ι)
  | .loop .erase =>
      match s.loop with
      | .erasing id source => [(id, source)]
      | _ => []
  | _ => []

/-- A call of `_signalingWS->send`. -/
def sent (s : State ι) : Action ι → List (Bytes × Source ι)
  | .loop (.send _) =>
      match s.loop with
      | .sending message source => [(message, source)]
      | _ => []
  | _ => []

variable {C : Codec}

/-! ## Which texts reach the handler -/

theorem stringMember_some {j : Json} {key s : Bytes} : stringMember j key = some s ↔ j.HasString key s := by
  unfold stringMember HasString
  constructor
  · intro h
    split at h
    · rename_i t hf
      rw [hf, Option.some.inj h]
    · exact absurd h (by simp)
  · intro h
    rw [h]

/-- No received text gets there. -/
theorem outputId_inbound {data : Data} {text : Bytes} (h : Inbound C data text) : outputId C text = none := by
  obtain ⟨message, jsonMsg, marked, -, -, ha, hread, -⟩ := h.read
  have hmode : stringMember marked (str "io_mode") = some (str "input") :=
    stringMember_some.mpr (find_assign_self ha)
  unfold outputId
  simp only [safeParse, hread, hmode, Option.bind_eq_bind, Option.bind_some]
  cases stringMember marked (str "id") with
  | none => rfl
  | some id => cases stringMember marked (str "type") <;> rfl

/-- A client's text gets there under the client's id. -/
theorem outputId_emitted {id text : Bytes} (h : Emitted C id text) : outputId C text = some id := by
  rcases h with hd | ⟨type, sdp, hd⟩
  · have hp := C.parse_dump (wf_disconnectMessage _ id) hd
    unfold outputId
    simp only [safeParse, hp, Option.bind_eq_bind, Option.bind_some]
    rfl
  · have hp := C.parse_dump (wf_descriptionMessage _ id type sdp) hd
    unfold outputId
    simp only [safeParse, hp, Option.bind_eq_bind, Option.bind_some]
    rfl

/-! ## What the collector takes -/

/-- A callback of a client has pushed the text, which carries the id that the registry has the client
    under. -/
def Vetted (C : Codec) (pushes : ClientRef → List Bytes) (p : Item ι × ClientsMap) : Prop :=
  ∃ c id, p.1.source = .client c ∧ p.2.lookup id = some c ∧ Emitted C id p.1.text ∧ p.1.text ∈ pushes c

theorem vetted_collected {s : State ι} {a : Action ι} {pushes : ClientRef → List Bytes}
    {collects : List (Item ι × ClientsMap)} {p : Item ι × ClientsMap} (hs : Sane s) (ht : Traced C s)
    (ho : ∀ c, Outbox s c (pushes c) collects) (hp : p ∈ collected s a) : Vetted C pushes p := by
  unfold collected at hp
  split at hp
  · split at hp
    · rename_i e rest hpc
      split at hp
      · rename_i text htext
        obtain rfl := List.mem_singleton.mp hp
        obtain ⟨client, hk, hhead⟩ := Option.bind_eq_some_iff.mp htext
        have hmem : text ∈ client.signalingQueueOut.queue := List.mem_of_mem_head? hhead
        have hreg : s.clientsMap.lookup e.1 = some e.2 :=
          hs.collecting (e :: rest) (by rw [hpc]; rfl) e List.mem_cons_self
        obtain ⟨client', hk', hid, hlive⟩ := hs.registered e.1 e.2 hreg
        obtain rfl := Option.some.inj (hk.symm.trans hk')
        have hem : Emitted C client.id text := (ht.outgoing e.2 client hk).2 text hmem
        have hpushed : text ∈ pushes e.2 := by
          rw [((ho e.2).live client hk hlive).2]
          exact List.mem_append_right _ hmem
        exact ⟨e.2, e.1, rfl, hreg, hid ▸ hem, hpushed⟩
      · exact absurd hp (by simp)
    · exact absurd hp (by simp)
  · exact absurd hp (by simp)

/-- Everything that has been collected was vetted. -/
theorem exec_vetted (as : List (Action ι)) (s : State ι) (h : exec (step C) (init ι) as = some s) :
    ∀ p ∈ shown C collected as, Vetted C (fun c => shown C (pushed c) as) p := by
  have hstays : ∀ as s a (p : Item ι × ClientsMap), exec (step C) (init ι) as = some s →
      Vetted C (fun c => shown C (pushed c) as) p → Vetted C (fun c => shown C (pushed c) (as ++ [a])) p := by
    rintro as s a p has ⟨c, id, hsource, hreg, hem, hpushed⟩
    refine ⟨c, id, hsource, hreg, hem, ?_⟩
    simp only [shown, trace_snoc has]
    exact List.mem_append_left _ hpushed
  refine trace_induction ?_ hstays as s h
  intro as s a s' has _ p hp
  obtain ⟨hs, ht, -, ho⟩ := exec_collection as s has
  exact hstays as s a p has (vetted_collected hs ht ho hp)

/-! ## What the loop takes -/

theorem mem_taken {s : State ι} {a : Action ι} {item : Item ι} (h : item ∈ taken s a) :
    item ∈ s.signalingQueue.queue := by
  unfold taken at h
  split at h
  · split at h
    · exact List.mem_of_mem_head? (Option.mem_toList.mp h)
    · exact absurd h (by simp)
  · exact absurd h (by simp)

/-- What the loop has taken was received, or is a client's. -/
theorem taken_source {as : List (Action ι)} {s : State ι} (h : exec (step C) (init ι) as = some s) :
    ∀ item ∈ shown C taken as, Received C item ∨ ∃ c, item.source = .client c := by
  refine forall_mem_trace (I := fun s => Sane s ∧ Traced C s) ?_ ?_ as (init ι) s ⟨sane_init, traced_init⟩ h
  · rintro s a s' ⟨hs, ht⟩ hst
    exact ⟨sane_step hs hst, traced_step hs ht hst⟩
  · rintro s a s' ⟨-, ht⟩ - item hitem
    rcases ht.queue item (mem_taken hitem) with hr | ⟨c, X, hc, -, -⟩
    · exact .inl hr
    · exact .inr ⟨c, hc⟩

/-- A client's item that the loop has taken was collected. -/
theorem collected_of_taken {as : List (Action ι)} {s : State ι} (h : exec (step C) (init ι) as = some s)
    {item : Item ι} {c : ClientRef} (hitem : item ∈ shown C taken as) (hc : item.source = .client c) :
    ∃ m, (item, m) ∈ shown C collected as := by
  obtain ⟨-, -, hf, -⟩ := exec_collection as s h
  have hmem : item ∈ clientItems (shown C taken as ++ s.signalingQueue.queue) ++ s.held := by
    apply List.mem_append_left
    unfold clientItems
    rw [List.mem_filter]
    exact ⟨List.mem_append_left _ hitem, by simp [hc, Source.client?]⟩
  obtain ⟨p, hp, rfl⟩ := List.mem_map.mp (hf.dropping.subset hmem)
  exact ⟨p.2, hp⟩

/-- What has reached `outputMessageHandler` is one of the items taken. -/
theorem mem_handled {as : List (Action ι)} {s : State ι} (h : exec (step C) (init ι) as = some s) :
    ∀ p ∈ shown C (handled C) as, p.2 ∈ shown C taken as ∧ outputId C p.2.text = some p.1 := by
  refine trace_induction
    (P := fun as (p : Bytes × Item ι) => p.2 ∈ shown C taken as ∧ outputId C p.2.text = some p.1) ?_ ?_ as s h
  · intro as s a s' has _ p hp
    obtain ⟨item, hitem, hp⟩ := List.mem_filterMap.mp hp
    obtain ⟨id, hid, rfl⟩ := Option.map_eq_some_iff.mp hp
    simp only [shown, trace_snoc has]
    exact ⟨List.mem_append_right _ hitem, hid⟩
  · rintro as s a p has ⟨hitem, hid⟩
    simp only [shown, trace_snoc has]
    exact ⟨List.mem_append_left _ hitem, hid⟩

/-- **Behind the boundary.** What reaches `outputMessageHandler` was pushed by a client and collected from it
    while it was registered under the id in the message. -/
theorem handled_vetted {as : List (Action ι)} {s : State ι} (h : exec (step C) (init ι) as = some s)
    {id : Bytes} {item : Item ι} (hmem : (id, item) ∈ shown C (handled C) as) :
    ∃ c m, item.source = .client c ∧ item.text ∈ shown C (pushed c) as ∧ (item, m) ∈ shown C collected as ∧
      m.lookup id = some c := by
  obtain ⟨hitem, hid⟩ := mem_handled h _ hmem
  rcases taken_source h item hitem with ⟨tag, data, -, hin⟩ | ⟨c, hc⟩
  · rw [outputId_inbound hin] at hid
    exact absurd hid (by simp)
  · obtain ⟨m, hcollected⟩ := collected_of_taken h hitem hc
    obtain ⟨d, X, hd, hreg, hem, hpushed⟩ := exec_vetted as s h _ hcollected
    obtain rfl := Source.client.inj (hd.symm.trans hc)
    -- the id it was collected under is the one in the text
    have hX : X = id := Option.some.inj ((outputId_emitted hem).symm.trans hid)
    exact ⟨d, m, hc, hpushed, hcollected, hX ▸ hreg⟩

/-! ## What the handler does -/

/-- An erase or a send is for a message that has reached `outputMessageHandler`. -/
def Ordered (history : List (Bytes × Item ι)) : Loop ι → Prop
  | .erasing id source => ∃ item, (id, item) ∈ history ∧ item.source = source
  | .sending message source => ∃ id item, (id, item) ∈ history ∧ item.source = source ∧ item.text = message
  | _ => True

theorem Ordered.mono {history more : List (Bytes × Item ι)} {l : Loop ι} (h : Ordered history l) :
    Ordered (history ++ more) l := by
  cases l with
  | erasing id source =>
      obtain ⟨item, hitem, hsource⟩ := h
      exact ⟨item, List.mem_append_left _ hitem, hsource⟩
  | sending message source =>
      obtain ⟨id, item, hitem, hsource, htext⟩ := h
      exact ⟨id, item, List.mem_append_left _ hitem, hsource, htext⟩
  | top | polling | emplacing _ _ _ | destroying _ | answering _ _ _ | joining | done => trivial

theorem ordered_step {s s' : State ι} {a : Action ι} {history : List (Bytes × Item ι)} (ht : Traced C s)
    (ho : Ordered history s.loop) (h : step C s a = some s') :
    Ordered (history ++ handled C s a) s'.loop := by
  by_cases ha : ∃ b, a = .loop b
  · obtain ⟨b, rfl⟩ := ha
    cases (step_cases h).2 with
    | loop h =>
        cases h with
        | @popped item q verdict hpc hq hv =>
            obtain ⟨rest, hqueue, rfl⟩ := BlockingQueue.tryPop_some hq
            have htaken := taken_front hpc hqueue
            rcases ht.queue item (by rw [hqueue]; exact List.mem_cons_self) with
              ⟨tag, data, -, hin⟩ | ⟨c, X, -, -, hem⟩
            · -- a received message asks for neither
              obtain ⟨message, jsonMsg, -, -, hiv⟩ := process_inbound_verdict hin hv
              cases hiv <;> trivial
            · have hhandled : handled C s (.loop .pop) = [(X, item)] := by
                simp only [handled, htaken, List.filterMap_cons, List.filterMap_nil, outputId_emitted hem,
                  Option.map_some]
              have hmem : (X, item) ∈ history ++ handled C s (.loop .pop) := by
                rw [hhandled]
                exact List.mem_append_right _ List.mem_cons_self
              rcases process_emitted s.clientsMap hem with hp | hp
              · obtain rfl := Except.ok.inj (hp.symm.trans hv)
                exact ⟨item, hmem, rfl⟩
              · obtain rfl := Except.ok.inj (hp.symm.trans hv)
                exact ⟨X, item, hmem, rfl, rfl⟩
        | checked _ =>
            show Ordered _ (if s.doTerm then Loop.joining else .polling)
            split <;> trivial
        | @destroyed c client client' _ _ _ =>
            show Ordered _ (if client'.lifetime = .destroyed then Loop.top else .destroying c)
            split <;> trivial
        | threw _ _ _ | sendThrew _ => exact ho.mono
        | stopped _ _ | emplaced _ _ _ | discarded _ _ _ _ | absent _ _ _ | erased _ _ _ _ | answered _ _ _
        | sent _ | joined _ _ => trivial
  · have hkept := loop_kept h fun b hb => ha ⟨b, hb⟩
    rw [hkept]
    exact ho.mono

theorem exec_ordered (as : List (Action ι)) (s : State ι) (h : exec (step C) (init ι) as = some s) :
    Ordered (shown C (handled C) as) s.loop := by
  refine exec_induction (motive := fun as s => Ordered (shown C (handled C) as) s.loop) ?_ ?_ as s h
  · trivial
  · intro as s a s' has ih hst
    simp only [shown, trace_snoc has]
    exact ordered_step (exec_traced has).2 ih hst

/-- Every erase is for a message that has reached the handler, under the message's id. -/
theorem erased_handled {as : List (Action ι)} {s : State ι} (h : exec (step C) (init ι) as = some s) :
    ∀ e ∈ shown C erased as, ∃ item, (e.1, item) ∈ shown C (handled C) as ∧ item.source = e.2 := by
  have hstays : ∀ as s a (e : Bytes × Source ι), exec (step C) (init ι) as = some s →
      (∃ item, (e.1, item) ∈ shown C (handled C) as ∧ item.source = e.2) →
      ∃ item, (e.1, item) ∈ shown C (handled C) (as ++ [a]) ∧ item.source = e.2 := by
    rintro as s a e has ⟨item, hitem, hsource⟩
    simp only [shown, trace_snoc has]
    exact ⟨item, List.mem_append_left _ hitem, hsource⟩
  refine trace_induction ?_ hstays as s h
  intro as s a s' has _ e he
  apply hstays as s a e has
  have ho := exec_ordered as s has
  unfold erased at he
  split at he
  · split at he
    · rename_i id source hpc
      obtain rfl := List.mem_singleton.mp he
      rw [hpc] at ho
      exact ho
    · exact absurd he (by simp)
  · exact absurd he (by simp)

/-- Every send is of the text of a message that has reached the handler. -/
theorem sent_handled {as : List (Action ι)} {s : State ι} (h : exec (step C) (init ι) as = some s) :
    ∀ e ∈ shown C sent as, ∃ id item, (id, item) ∈ shown C (handled C) as ∧ item.source = e.2 ∧
      item.text = e.1 := by
  have hstays : ∀ as s a (e : Bytes × Source ι), exec (step C) (init ι) as = some s →
      (∃ id item, (id, item) ∈ shown C (handled C) as ∧ item.source = e.2 ∧ item.text = e.1) →
      ∃ id item, (id, item) ∈ shown C (handled C) (as ++ [a]) ∧ item.source = e.2 ∧ item.text = e.1 := by
    rintro as s a e has ⟨id, item, hitem, hsource, htext⟩
    simp only [shown, trace_snoc has]
    exact ⟨id, item, List.mem_append_left _ hitem, hsource, htext⟩
  refine trace_induction ?_ hstays as s h
  intro as s a s' has _ e he
  apply hstays as s a e has
  have ho := exec_ordered as s has
  unfold sent at he
  split at he
  · split at he
    · rename_i message source hpc
      obtain rfl := List.mem_singleton.mp he
      rw [hpc] at ho
      exact ho
    · exact absurd he (by simp)
  · exact absurd he (by simp)

/-! ## The temporary client of a request for a registered id -/

/-- Nothing of a client has been collected as long as it has never been registered. -/
theorem not_collected_of_fresh {as : List (Action ι)} {s : State ι} {c : ClientRef}
    (h : exec (step C) (init ι) as = some s) :
    Fresh s c → ∀ p ∈ shown C collected as, p.1.source ≠ .client c := by
  refine exec_induction (motive := fun as s => Fresh s c →
    ∀ p ∈ shown C collected as, p.1.source ≠ .client c) ?_ ?_ as s h
  · intro _ p hp
    exact absurd hp (by simp [trace])
  · intro as s a s' has ih hst hfresh p hp hc
    have hfresh' : Fresh s c := (registry_step hst c).2 hfresh
    simp only [shown, trace_snoc has] at hp
    rcases List.mem_append.mp hp with hp | hp
    · exact ih hfresh' p hp hc
    · have hs : Sane s := exec_sane has
      obtain ⟨d, X, hd, -, hX⟩ := hs.collected_registered hp
      obtain rfl := Source.client.inj (hd.symm.trans hc)
      exact hs.not_visits_of_fresh hfresh' (visits_iff.mpr ⟨X, hX⟩)

/-- When it is discarded it is gone. -/
theorem gone_of_discarded {s s' : State ι} (hs : Sane s) {id : Bytes} {c : ClientRef} {source : Source ι}
    (hpc : s.loop = .emplacing id c source) (hid : id ∈ s.clientsMap)
    (h : step C s (.loop .emplace) = some s') : Gone s' c := by
  have hfresh : Fresh s c := .inr ⟨id, source, hpc⟩
  have hvisits : ¬ Visits c s.clientsMap := hs.not_visits_of_fresh hfresh
  obtain ⟨hlive, -⟩ := hs.emplacing id c source hpc
  obtain ⟨k, hk, -⟩ := hlive
  obtain ⟨hlt, -⟩ := List.getElem?_eq_some_iff.mp hk
  cases (step_cases h).2 with
  | loop h =>
      cases h with
      | emplaced hpc' _ hno =>
          obtain ⟨rfl, -, -⟩ := Loop.emplacing.inj (hpc.symm.trans hpc')
          exact absurd hid hno
      | discarded _ _ _ _ =>
          refine ⟨hvisits, ?_⟩
          rintro (hlen | ⟨id', source', hpc'⟩)
          · rw [List.length_set] at hlen
            exact absurd hlt (Nat.not_lt.mpr hlen)
          · exact absurd hpc' (by simp)

/-- **A discarded client never contributes.** No message of it is collected in the whole run, so none is
    taken. -/
theorem discarded_silent {pre post : List (Action ι)} {s s₁ : State ι} {id : Bytes} {c : ClientRef}
    {source : Source ι} (h : exec (step C) (init ι) (pre ++ .loop .emplace :: post) = some s)
    (hpre : exec (step C) (init ι) pre = some s₁) (hpc : s₁.loop = .emplacing id c source)
    (hid : id ∈ s₁.clientsMap) :
    ∀ p ∈ shown C collected (pre ++ .loop .emplace :: post), p.1.source ≠ .client c := by
  have hs₁ : Sane s₁ := exec_sane hpre
  obtain ⟨s₁', hpre', hpost⟩ := exec_append_some.mp h
  obtain rfl := Option.some.inj (hpre.symm.trans hpre')
  obtain ⟨s₂, hst, hrest⟩ := exec_cons_some.mp hpost
  intro p hp
  rw [shown, trace_append hpre, trace_cons hst] at hp
  rcases List.mem_append.mp hp with hp | hp
  · exact not_collected_of_fresh hpre (.inr ⟨id, source, hpc⟩) p hp
  · exact not_collected_of_gone (sane_step hs₁ hst) (gone_of_discarded hs₁ hpc hid hst) hrest p hp

/-! ## Every run -/

/-- An id loses its entry by an erase or when the streamer is destroyed. -/
theorem removed_step {s s' : State ι} {a : Action ι} {X : Bytes} (h : step C s a = some s')
    (hX : X ∈ s.clientsMap) (hremoved : X ∉ s'.clientsMap) :
    a = .destructor ∨ ∃ source, (X, source) ∈ erased s a := by
  by_cases hdestructor : a = .destructor
  · exact .inl hdestructor
  by_cases hloop : a ≠ .loop .emplace ∧ a ≠ .loop .erase
  · rw [clientsMap_kept h hloop hdestructor] at hremoved
    exact absurd hX hremoved
  · cases (step_cases h).2 with
    | loop h =>
        cases h with
        | emplaced _ _ _ => exact absurd ((AList.mem_insert _).mpr (.inr hX)) hremoved
        | discarded _ _ _ _ | absent _ _ _ => exact absurd hX hremoved
        | @erased id source c client hpc _ _ _ =>
            have hid : X = id := by
              by_contra hne
              exact hremoved (AList.mem_erase.mpr ⟨hne, hX⟩)
            subst hid
            refine .inr ⟨source, ?_⟩
            simp only [Streamer.erased, hpc, List.mem_singleton]
        | checked _ | stopped _ _ | popped _ _ _ | threw _ _ _ | destroyed _ _ _ | answered _ _ _ | sent _
        | sendThrew _ | joined _ _ => exact absurd ⟨by simp, by simp⟩ hloop
    | onMessage _ | collector _ | multimedia _ | pushData _ | client _ _ =>
        exact absurd ⟨by simp, by simp⟩ hloop
    | destructor _ => exact absurd rfl hdestructor

/-- **The trust boundary.** In every run, whatever is received: each message that reaches `outputMessageHandler`
    was pushed by a callback of a client and collected from it when the client was registered under the very id
    in the message; each erase and each send is for such a message; an entry disappears by such an erase or with
    the streamer; and a client that is discarded because its id is registered contributes no message. -/
theorem trust_boundary {as : List (Action ι)} {s : State ι} (h : exec (step C) (init ι) as = some s) :
    (∀ id item, (id, item) ∈ shown C (handled C) as →
      ∃ c m, item.source = .client c ∧ item.text ∈ shown C (pushed c) as ∧
        (item, m) ∈ shown C collected as ∧ m.lookup id = some c) ∧
    (∀ id source, (id, source) ∈ shown C erased as →
      ∃ item, (id, item) ∈ shown C (handled C) as ∧ item.source = source) ∧
    (∀ message source, (message, source) ∈ shown C sent as →
      ∃ id item, (id, item) ∈ shown C (handled C) as ∧ item.source = source ∧ item.text = message) ∧
    (∀ pre a post s₁ s₂ X, as = pre ++ a :: post → exec (step C) (init ι) pre = some s₁ →
      step C s₁ a = some s₂ → X ∈ s₁.clientsMap → X ∉ s₂.clientsMap →
      a = .destructor ∨ ∃ source, (X, source) ∈ erased s₁ a) ∧
    ∀ pre post s₁ id c source, as = pre ++ .loop .emplace :: post → exec (step C) (init ι) pre = some s₁ →
      s₁.loop = .emplacing id c source → id ∈ s₁.clientsMap →
      (∀ p ∈ shown C collected as, p.1.source ≠ .client c) ∧
        ∀ item ∈ shown C taken as, item.source ≠ .client c := by
  refine ⟨?_, ?_, ?_, ?_, ?_⟩
  · intro id item hmem
    exact handled_vetted h hmem
  · intro id source hmem
    exact erased_handled h _ hmem
  · intro message source hmem
    exact sent_handled h _ hmem
  · intro pre a post s₁ s₂ X _ _ hst hX hremoved
    exact removed_step hst hX hremoved
  · rintro pre post s₁ id c source rfl hpre hpc hid
    have hsilent := discarded_silent h hpre hpc hid
    refine ⟨hsilent, ?_⟩
    intro item hitem hc
    obtain ⟨m, hcollected⟩ := collected_of_taken h hitem hc
    exact hsilent _ hcollected hc

/-- A peer sends a disconnect and an offer for the id of a registered client, marked as output, and then a
    request for the same id; the client's own disconnect comes last. -/
def impersonation : List (Action Unit) :=
  [.onMessage (.receive () (.text (str "\x7b\"id\":\"b\",\"type\":\"request\"\x7d"))), .onMessage .push,
    .loop .check, .loop .pop, .loop .emplace,
    .onMessage (.receive () (.text (str
      "\x7b\"id\":\"b\",\"io_mode\":\"output\",\"type\":\"disconnect\",\"io_mode\":\"output\"\x7d"))),
    .onMessage .push, .loop .check, .loop .pop,
    .onMessage (.receive () (.text (str "\x7b\"id\":\"b\",\"io_mode\":\"output\",\"type\":\"offer\"\x7d"))),
    .onMessage .push, .loop .check, .loop .pop,
    .onMessage (.receive () (.text (str "\x7b\"id\":\"b\",\"type\":\"request\"\x7d"))), .onMessage .push,
    .loop .check, .loop .pop, .loop .emplace, .loop .destroy, .loop .destroy, .loop .destroy, .loop .destroy,
    .client 1 .check, .loop .destroy,
    .client 0 (.stateChange .failed), .client 0 (.push 0), .collector .check,
    .collector (.lock [⟨str "b", 0⟩]), .collector (.get false), .collector .push, .collector .unlock,
    .loop .check, .loop .pop, .loop .erase]

theorem trust_boundary_impersonation :
    (shown JsonText.text erased impersonation).map Prod.fst = [str "b"] ∧
      ∀ id source, (id, source) ∈ shown JsonText.text erased impersonation →
        ∃ item, (id, item) ∈ shown JsonText.text (handled JsonText.text) impersonation ∧
          item.source = source := by
  have hrun : (exec (step JsonText.text) (init Unit) impersonation).isSome := by decide +kernel
  obtain ⟨s, hs⟩ := Option.isSome_iff_exists.mp hrun
  exact ⟨by decide +kernel, (trust_boundary hs).2.1⟩

end Streamer

end WebrtcStreamer
