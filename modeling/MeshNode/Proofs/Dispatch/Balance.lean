/-
# The balance of a run

Over any run of requests, a handler ran exactly as often as a counter of what it serves was moved:
for a channel the counters of messages that were handled or failed, for a route the counter of its
requests.  Every message that is dispatched moves one counter of channels, and no name on the wire
makes a new series of them.

* `journal` is a run, `journal_tallied` what each of its requests leaves;
* `Journal.Tallied.runs_for` and `Journal.Tallied.runs_of`: how often a handler ran, by what it
  serves and altogether, each by induction over the run;
* `Journal.Tallied.channelSeries` and `Journal.Tallied.routeSeries`: how many label sets there are;
* `Balanced` and `journal_balanced`: all of it.
-/
import MeshNode.Proofs.Dispatch.Tally
import Mathlib.Data.Finset.Prod

namespace MeshNode.Dispatch

variable {κ ρ σ : Type} {behavior : Behavior κ ρ σ} {registry : Registry κ ρ}

/-! ## 1. A run -/

/-- What happened to one request after another. -/
abbrev Journal (κ ρ σ : Type) := List (Inbound × Dispatched κ ρ σ)

/-- **A run**: each request is dispatched in the state that the one before it left. -/
def journal (behavior : Behavior κ ρ σ) (registry : Registry κ ρ) :
    List Inbound → σ → Journal κ ρ σ
  | [], _ => []
  | request :: rest, state =>
    let d := dispatch behavior registry request state
    (request, d) :: journal behavior registry rest d.state

namespace Journal

variable {run : Journal κ ρ σ}

/-- The handlers that ran. -/
def invocations (run : Journal κ ρ σ) : List (Invocation κ ρ) := run.flatMap (·.2.invocations)

/-- What was counted. -/
def counts (run : Journal κ ρ σ) : List Count := run.flatMap (·.2.counts)

/-- What happened to the requests for one thing. -/
def on (what : ChannelName ⊕ RouteName) (run : Journal κ ρ σ) : Journal κ ρ σ :=
  run.filter (·.1.IsFor what)

/-- All requests of a run are tallied. -/
def Tallied (registry : Registry κ ρ) (run : Journal κ ρ σ) : Prop :=
  ∀ entry ∈ run, Dispatch.Tallied registry entry.1 entry.2.invocations entry.2.counts

/-- What is counted in a run has one of the labels there are. -/
theorem Tallied.labelled (h : Tallied registry run) :
    ∀ count ∈ run.counts, Labelled registry count := by
  intro count hmem
  obtain ⟨entry, hentry, hcount⟩ := List.mem_flatMap.mp hmem
  exact (h entry hentry).labelled count hcount

/-- The counters of channels moved once for each message. -/
theorem Tallied.messages (h : Tallied registry run) :
    run.counts.countP (·.counter = "dapp_client_channel_messages_total")
      = (run.map Prod.fst).countP (·.IsMessage) := by
  induction run with
  | nil => rfl
  | cons entry rest ih =>
    obtain ⟨hentry, hrest⟩ := List.forall_mem_cons.mp h
    rw [counts, List.flatMap_cons, List.countP_append, hentry.messages, ← counts, ih hrest,
      List.map_cons, List.countP_cons, Nat.add_comm]
    simp only [decide_eq_true_eq]

variable [DecidableEq κ] [DecidableEq ρ] {handler : κ ⊕ ρ}

/-- **By what is served**: over the requests for it, its handler ran as often as its counters
moved. -/
theorem Tallied.runs_for {what : ChannelName ⊕ RouteName} (h : Tallied registry run)
    (hhandler : registry.handler? what = some handler) :
    (run.on what).invocations.countP (·.handler = handler) = Count.runs run.counts what := by
  induction run with
  | nil => simp [on, invocations, counts]
  | cons entry rest ih =>
    obtain ⟨hentry, hrest⟩ := List.forall_mem_cons.mp h
    rw [counts, List.flatMap_cons, Count.runs_append, ← counts, ← ih hrest,
      ← hentry.runs_for hhandler]
    by_cases hwhat : entry.1.IsFor what
    · simp [on, invocations, hwhat]
    · simp [on, invocations, hwhat]

/-- **Altogether**: a handler ran as often as the counters moved of all that it serves. -/
theorem Tallied.runs_of (h : Tallied registry run) :
    run.invocations.countP (·.handler = handler)
      = ∑ what ∈ registry.served with registry.handler? what = some handler,
          Count.runs run.counts what := by
  induction run with
  | nil => simp [invocations, counts]
  | cons entry rest ih =>
    obtain ⟨hentry, hrest⟩ := List.forall_mem_cons.mp h
    simp only [invocations, counts, List.flatMap_cons, List.countP_append, Count.runs_append,
      Finset.sum_add_distrib]
    rw [hentry.runs_of, ← invocations, ih hrest, counts]

end Journal

/-- The requests of a run are those that came in. -/
theorem journal_requests (requests : List Inbound) (state : σ) :
    (journal behavior registry requests state).map Prod.fst = requests := by
  induction requests generalizing state with
  | nil => rfl
  | cons request rest ih => rw [journal, List.map_cons, ih]

/-- All requests of a run are tallied. -/
theorem journal_tallied (requests : List Inbound) (state : σ) :
    Journal.Tallied registry (journal behavior registry requests state) := by
  induction requests generalizing state with
  | nil => exact List.forall_mem_nil _
  | cons request rest ih =>
    exact List.forall_mem_cons.mpr ⟨dispatch_tallied behavior registry request state, ih _⟩

/-! ## 2. The label sets -/

/-- The label sets under which a counter moved. -/
def Journal.series (run : Journal κ ρ σ) (counter : String) : Finset (List (String × String)) :=
  ((run.counts.filter (·.counter = counter)).map Count.labels).toFinset

theorem Journal.mem_series {run : Journal κ ρ σ} {counter : String}
    {labels : List (String × String)} :
    labels ∈ run.series counter
      ↔ ∃ count ∈ run.counts, count.counter = counter ∧ count.labels = labels := by
  simp [series, and_assoc]

/-- **The label sets of channels** are at most three for each that is served, and one more. -/
theorem Journal.Tallied.channelSeries {run : Journal κ ρ σ} (h : Journal.Tallied registry run) :
    (run.series "dapp_client_channel_messages_total").card
      ≤ 3 * registry.served.toLeft.card + 1 := by
  let known : Finset Count.Outcome := {.ok, .failed, .malformed}
  have hsub : run.series "dapp_client_channel_messages_total"
      ⊆ insert (Count.message "unregistered" .unknown).labels
          ((known ×ˢ registry.served.toLeft).image
            fun p => (Count.message p.2.text p.1).labels) := by
    intro labels hlabels
    obtain ⟨count, hmem, hcounter, rfl⟩ := Journal.mem_series.mp hlabels
    rw [Finset.mem_insert]
    cases h.labelled count hmem with
    | unregistered => exact .inl rfl
    | @message name outcome served hknown =>
      have hmember : outcome ∈ known := by
        cases outcome with
        | unknown => exact absurd rfl hknown
        | _ => decide
      refine .inr (Finset.mem_image.mpr ⟨(outcome, name), ?_, rfl⟩)
      exact Finset.mem_product.mpr ⟨hmember, Finset.mem_toLeft.mpr served⟩
    | request => exact absurd hcounter (by simp [Count.request])
  calc (run.series "dapp_client_channel_messages_total").card
      ≤ ((known ×ˢ registry.served.toLeft).image
          fun p => (Count.message p.2.text p.1).labels).card + 1 :=
        (Finset.card_le_card hsub).trans (Finset.card_insert_le _ _)
    _ ≤ (known ×ˢ registry.served.toLeft).card + 1 := Nat.add_le_add_right Finset.card_image_le 1
    _ = 3 * registry.served.toLeft.card + 1 := by rw [Finset.card_product]; rfl

/-- **The label sets of routes** are at most one for each that is served. -/
theorem Journal.Tallied.routeSeries {run : Journal κ ρ σ} (h : Journal.Tallied registry run) :
    (run.series "dapp_client_route_requests_total").card ≤ registry.served.toRight.card := by
  have hsub : run.series "dapp_client_route_requests_total"
      ⊆ registry.served.toRight.image fun name => (Count.request name.text).labels := by
    intro labels hlabels
    obtain ⟨count, hmem, hcounter, rfl⟩ := Journal.mem_series.mp hlabels
    cases h.labelled count hmem with
    | unregistered => exact absurd hcounter (by decide)
    | message => exact absurd hcounter (by simp [Count.message])
    | @request name served =>
      exact Finset.mem_image.mpr ⟨name, Finset.mem_toRight.mpr served, rfl⟩
  exact (Finset.card_le_card hsub).trans Finset.card_image_le

/-! ## 3. The balance -/

/-- **The balance of a run**: what its counters have to do with what it did. -/
structure Balanced [DecidableEq κ] [DecidableEq ρ] (registry : Registry κ ρ)
    (requests : List Inbound) (run : Journal κ ρ σ) : Prop where
  /-- It is a run of these requests. -/
  requests_eq : run.map Prod.fst = requests
  /-- Over the requests for a channel, its handler ran as often as its messages were counted as
  handled or failed; over those for a route, as often as they were counted. -/
  served : ∀ what handler, registry.handler? what = some handler →
    (run.on what).invocations.countP (·.handler = handler) = Count.runs run.counts what
  /-- Altogether a handler ran as often as that was counted of all that it serves: of one channel
  or route, if it is registered once. -/
  handlers : ∀ handler, run.invocations.countP (·.handler = handler)
    = ∑ what ∈ registry.served with registry.handler? what = some handler,
        Count.runs run.counts what
  /-- The counters of channels moved once for each message that is dispatched. -/
  messages : run.counts.countP (·.counter = "dapp_client_channel_messages_total")
    = requests.countP (·.IsMessage)
  /-- What is counted is a message to no channel that is served, under one label, or a message to
  one that is, or a request on a route that is. -/
  labelled : ∀ count ∈ run.counts, Labelled registry count
  /-- A channel has three label sets at most, and there is one more for all others. -/
  channelSeries : (run.series "dapp_client_channel_messages_total").card
    ≤ 3 * registry.served.toLeft.card + 1
  /-- A route has one label set at most. -/
  routeSeries : (run.series "dapp_client_route_requests_total").card ≤ registry.served.toRight.card

/-- **Every run is balanced**: whatever the handlers of a node do, whatever is registered, and
whatever comes in, by any method, on any path and with any body. -/
theorem journal_balanced [DecidableEq κ] [DecidableEq ρ] (behavior : Behavior κ ρ σ)
    (registry : Registry κ ρ) (requests : List Inbound) (state : σ) :
    Balanced registry requests (journal behavior registry requests state) := by
  have htallied : Journal.Tallied registry (journal behavior registry requests state) :=
    journal_tallied requests state
  exact
    { requests_eq := journal_requests requests state
      served := fun what handler hhandler => htallied.runs_for hhandler
      handlers := fun handler => htallied.runs_of
      messages := by rw [htallied.messages, journal_requests]
      labelled := htallied.labelled
      channelSeries := htallied.channelSeries
      routeSeries := htallied.routeSeries }

/-- A channel with the name of the label that the others share: its handler runs, fails and breaks
down, and a message to a channel that is not served is not counted as its own. -/
theorem journal_balanced_unregistered :
    let behavior : Behavior Nat Nat Nat :=
      ⟨fun _ data n => (match data with
          | .int 1 => .done
          | .int 2 => .failed (.text "no")
          | _ => .panicked .other, n + 1),
        fun _ _ n => (.panicked (.text "boom"), n)⟩
    let registry : Registry Nat Nat := Registry.ofHistory
      [.channel ⟨"unregistered"⟩ 7, .channel ⟨"orders"⟩ 8, .route ⟨"status"⟩ 9]
    let post (path : String) (data : Json) : Inbound :=
      ⟨.post, ⟨"", path, none⟩, [], Envelope.write ⟨data⟩⟩
    let requests : List Inbound :=
      [post "/channel/unregistered" (.int 1), post "/channel/unregistere%64" (.int 2),
        post "/channel/unregistered" .null, post "/channel/ghost" (.int 1),
        post "/channel/orders" (.int 1), post "/route/status" .null, post "/channel/%ff" .null,
        ⟨.post, ⟨"", "/channel/orders", none⟩, [], []⟩,
        ⟨.get, ⟨"", "/channel/orders", none⟩, [], []⟩]
    let run := journal behavior registry requests 0
    run.invocations.countP (·.handler = .inl 7) = 3 ∧
      run.invocations.countP (·.handler = .inr 9) = 1 ∧
      run.counts.countP (·.counter = "dapp_client_channel_messages_total") = 6 := by
  intro behavior registry post requests run
  have hbalanced : Balanced registry requests run := journal_balanced behavior registry requests 0
  refine ⟨?_, ?_, ?_⟩
  · rw [hbalanced.handlers]
    decide +kernel
  · rw [hbalanced.handlers]
    decide +kernel
  · rw [hbalanced.messages]
    decide +kernel

end MeshNode.Dispatch
