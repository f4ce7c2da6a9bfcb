/-
# Chains of exchanges

A call is a chain: a request, the redirections it is sent along, and the reply at the end.  The
client builds the chain step by step; here it is a derivation of its own, and what holds along
a chain is proved by induction on it.

* `follow_cases`: what one step of the client can do, `redirection?_eq_none`: when it goes on;
* `Chain` and `follow_chain`: a call that brings a response went along a chain;
* `follow_first`: the request that a chain begins with is the first to arrive;
* `Chain.post_last`: how a chain ends that begins with a POST.
-/
import MeshNode.Transport.Basic

namespace MeshNode

/-- The status of a reply, if its head came back. -/
def Reply.status? : Reply → Option Status
  | .cutOff status _ | .stalled status _ => some status
  | .complete response => some response.status
  | .refused | .broken | .silent => none

/-- Whether the sidecar replied that the request succeeded. -/
def Exchange.succeeded (e : Exchange) : Bool := e.reply.status?.any Status.isSuccess

/-- Whether a status asks for the same request once more, method and body unchanged. -/
def Status.repeatsRequest (s : Status) : Bool := s.code == 307 || s.code == 308

/-- Whether the reply asks for the same request once more. -/
def Exchange.repeats (e : Exchange) : Bool := e.reply.status?.any Status.repeatsRequest

variable {limited : Bool} {sidecar : Sidecar} {origin : Url} {steps : Nat}
  {past exchanges : List Exchange} {request : Request} {result : Except ExchangeError Response}
  {response : Response}

/-! ## 1. One step -/

/-- The reply to a request that comes after others. -/
def replyTo (sidecar : Sidecar) (past : List Exchange) (request : Request) : Reply :=
  sidecar (past.map Exchange.request ++ [request])

/-- A request that is not refused is an exchange, whatever comes after it. -/
theorem follow_arrived (hr : replyTo sidecar past request ≠ .refused) :
    follow limited sidecar origin steps past request
      = match (replyTo sidecar past request).redirection? request.url with
        | none => (receive limited origin request (replyTo sidecar past request),
            past ++ [⟨request, replyTo sidecar past request⟩])
        | some (status, target) =>
          match steps with
          | 0 => (.error (exhausted origin target),
              past ++ [⟨request, replyTo sidecar past request⟩])
          | rest + 1 =>
            match onward origin target with
            | .error e => (.error e, past ++ [⟨request, replyTo sidecar past request⟩])
            | .ok url => follow limited sidecar origin rest
                (past ++ [⟨request, replyTo sidecar past request⟩])
                (request.redirected status url) := by
  have hreply : sidecar (past.map Exchange.request ++ [request]) = replyTo sidecar past request :=
    rfl
  rw [follow.eq_def, hreply]
  split
  · exact absurd ‹_› hr
  -- the two matches are compared branch by branch: as a whole they unfold the client
  · cases (replyTo sidecar past request).redirection? request.url with
    | none => rfl
    | some next =>
      obtain ⟨status, target⟩ := next
      cases steps with
      | zero => rfl
      | succ rest => cases hurl : onward origin target <;> simp only [hurl]

theorem follow_refused (hr : replyTo sidecar past request = .refused) :
    follow limited sidecar origin steps past request
      = (.error (.failed .sending origin), past) := by
  rw [follow.eq_def]
  unfold replyTo at hr
  rw [hr]

/-- **What one step can do.**  The request does not arrive, and the chain ends where it was; or the
reply to it is no redirection, and the chain ends with it; or it is one that cannot be followed, for
want of steps or of a URL; or it is followed. -/
theorem follow_cases (h : follow limited sidecar origin steps past request = (result, exchanges)) :
    (result = .error (.failed .sending origin) ∧ exchanges = past) ∨
    ((replyTo sidecar past request).redirection? request.url = none ∧
      result = receive limited origin request (replyTo sidecar past request) ∧
      exchanges = past ++ [⟨request, replyTo sidecar past request⟩]) ∨
    ((replyTo sidecar past request).redirection? request.url ≠ none ∧
      (∃ e, result = .error e) ∧
      exchanges = past ++ [⟨request, replyTo sidecar past request⟩]) ∨
    (∃ rest status target url, steps = rest + 1 ∧
      (replyTo sidecar past request).redirection? request.url = some (status, target) ∧
      onward origin target = .ok url ∧
      follow limited sidecar origin rest (past ++ [⟨request, replyTo sidecar past request⟩])
        (request.redirected status url) = (result, exchanges)) := by
  by_cases hr : replyTo sidecar past request = .refused
  · rw [follow_refused hr, Prod.mk.injEq] at h
    exact .inl ⟨h.1.symm, h.2.symm⟩
  · rw [follow_arrived hr] at h
    cases hd : (replyTo sidecar past request).redirection? request.url with
    | none =>
      simp only [hd, Prod.mk.injEq] at h
      exact .inr (.inl ⟨rfl, h.1.symm, h.2.symm⟩)
    | some next =>
      obtain ⟨status, target⟩ := next
      cases steps with
      | zero =>
        simp only [hd, Prod.mk.injEq] at h
        exact .inr (.inr (.inl ⟨Option.some_ne_none _, ⟨_, h.1.symm⟩, h.2.symm⟩))
      | succ rest =>
        cases hurl : onward origin target with
        | error e =>
          simp only [hd, hurl, Prod.mk.injEq] at h
          exact .inr (.inr (.inl ⟨Option.some_ne_none _, ⟨_, h.1.symm⟩, h.2.symm⟩))
        | ok url =>
          simp only [hd, hurl] at h
          exact .inr (.inr (.inr ⟨rest, status, target, url, rfl, rfl, hurl, h⟩))

/-- A complete answer is received as it came, if it has a body only where there can be one. -/
theorem receive_complete {limited : Bool} {origin : Url} {request : Request} {answer : Response}
    (h : carriesBody request.method answer.status = false → answer.body = []) :
    receive limited origin request (.complete answer) = .ok answer := by
  rw [receive]
  split
  · rfl
  · rename_i hnone
    obtain ⟨status, headers, body⟩ := answer
    obtain rfl : body = [] := h (Bool.eq_false_iff.mpr hnone)
    rfl

/-- **Which answers do not send the client on**: those with a status that does not ask for it, and
those whose location is missing, no text, or stands for no URI. -/
theorem redirection?_eq_none {url : Url} {status : Status} {headers : Headers} :
    redirection? url status headers = none ↔
      ¬ ∃ location target, status.isRedirection = true ∧
        headers.text? "location" = some location ∧
        Reference.resolve? url.withoutFragment.text location = some target := by
  rw [redirection?]
  constructor
  · rintro h ⟨location, target, hstatus, hlocation, htarget⟩
    rw [if_pos hstatus, hlocation, Option.bind_some, htarget] at h
    cases h
  · intro h
    by_cases hstatus : status.isRedirection = true
    · rw [if_pos hstatus]
      cases hlocation : headers.text? "location" with
      | none => rfl
      | some location =>
        rw [Option.bind_some]
        cases htarget : Reference.resolve? url.withoutFragment.text location with
        | none => rfl
        | some target => exact absurd ⟨location, target, hstatus, hlocation, htarget⟩ h
    · rw [if_neg hstatus]

/-! ## 2. Whole calls -/

/-- A chain that begins with a request: the exchanges on the way, each with a reply that
redirects to the next request, and the last one, whose reply does not. -/
inductive Chain : Request → List Exchange → Exchange → Prop
  | stop {request : Request} {reply : Reply} (hd : reply.redirection? request.url = none) :
    Chain request [] ⟨request, reply⟩
  | hop {request : Request} {reply : Reply} {status : Status} {target : Reference} {origin url : Url}
    {hops : List Exchange} {last : Exchange}
    (hd : reply.redirection? request.url = some (status, target))
    (hurl : onward origin target = .ok url)
    (rest : Chain (request.redirected status url) hops last) :
    Chain request (⟨request, reply⟩ :: hops) last

/-- **A response is the end of a chain.**  What was there before stays in front of it. -/
theorem follow_chain : ∀ {steps : Nat} {past : List Exchange} {request : Request},
    follow limited sidecar origin steps past request = (.ok response, exchanges) →
    ∃ hops last, Chain request hops last ∧ exchanges = past ++ hops ++ [last] ∧
      receive limited origin last.request last.reply = .ok response
  | steps, past, request, h => by
    rcases follow_cases h with ⟨hresult, -⟩ | ⟨hd, hresult, hexchanges⟩ |
      ⟨-, ⟨e, hresult⟩, -⟩ | ⟨rest, status, target, url, hsteps, hd, hurl, hfollow⟩
    · cases hresult
    · exact ⟨[], _, .stop hd, by rw [hexchanges, List.append_nil], hresult.symm⟩
    · cases hresult
    · have : rest < steps := by omega
      obtain ⟨hops, last, hchain, hexchanges, hlast⟩ := follow_chain hfollow
      exact ⟨_ :: hops, last, .hop hd hurl hchain, by simp [hexchanges], hlast⟩
termination_by steps => steps

/-- What happened before stays in front of a chain. -/
theorem follow_extends : ∀ {steps : Nat} {past : List Exchange} {request : Request},
    follow limited sidecar origin steps past request = (result, exchanges) →
    ∃ later, exchanges = past ++ later
  | steps, past, request, h => by
    rcases follow_cases h with ⟨-, hexchanges⟩ | ⟨-, -, hexchanges⟩ | ⟨-, -, hexchanges⟩ |
      ⟨rest, status, target, url, hsteps, -, -, hfollow⟩
    · exact ⟨[], by rw [hexchanges, List.append_nil]⟩
    · exact ⟨_, hexchanges⟩
    · exact ⟨_, hexchanges⟩
    · have : rest < steps := by omega
      obtain ⟨later, hexchanges⟩ := follow_extends hfollow
      exact ⟨_ :: later, by rw [hexchanges, List.append_assoc]; rfl⟩
termination_by steps => steps

/-- **The first exchange of a chain** is that of the request it began with, if that arrives. -/
theorem follow_first (hr : replyTo sidecar past request ≠ .refused)
    (h : follow limited sidecar origin steps past request = (result, exchanges)) :
    ∃ later, exchanges = past ++ ⟨request, replyTo sidecar past request⟩ :: later := by
  rw [follow_arrived hr] at h
  cases hd : (replyTo sidecar past request).redirection? request.url with
  | none =>
    simp only [hd, Prod.mk.injEq] at h
    exact ⟨[], h.2.symm⟩
  | some next =>
    obtain ⟨status, target⟩ := next
    cases steps with
    | zero =>
      simp only [hd, Prod.mk.injEq] at h
      exact ⟨[], h.2.symm⟩
    | succ rest =>
      cases hurl : onward origin target with
      | error e =>
        simp only [hd, hurl, Prod.mk.injEq] at h
        exact ⟨[], h.2.symm⟩
      | ok url =>
        simp only [hd, hurl] at h
        obtain ⟨later, hexchanges⟩ := follow_extends h
        exact ⟨later, by rw [hexchanges, List.append_assoc]; rfl⟩

/-- What the client gives back has the status of the last reply. -/
theorem receive_status {reply : Reply} (h : receive limited origin request reply = .ok response) :
    reply.status? = some response.status := by
  cases reply with
  | refused => cases h
  | broken => cases h
  | silent => cases h
  | cutOff status headers =>
    rw [receive] at h
    split at h
    · cases h
    · cases h
      rfl
  | stalled status headers =>
    rw [receive] at h
    split at h
    · cases h
    · cases h
      rfl
  | complete r =>
    rw [receive, Except.ok.injEq] at h
    subst h
    split <;> rfl

/-! ## 3. Along a chain -/

/-- A reply that redirects has one of the statuses that do. -/
theorem Reply.status_of_redirection {reply : Reply} {url : Url} {target : Reference}
    {status : Status} (h : reply.redirection? url = some (status, target)) :
    reply.status? = some status ∧ status.isRedirection = true := by
  have hstatus : ∀ {s : Status} {headers : Headers},
      (MeshNode.redirection? url s headers).map (s, ·) = some (status, target) →
        s = status ∧ s.isRedirection = true := by
    intro s headers hs
    obtain ⟨u, hu, heq⟩ := Option.map_eq_some_iff.mp hs
    rw [MeshNode.redirection?] at hu
    split at hu
    · exact ⟨(Prod.mk.inj heq).1, ‹_›⟩
    · cases hu
  cases reply with
  | refused => cases h
  | broken => cases h
  | silent => cases h
  | cutOff s headers =>
    obtain ⟨rfl, hs⟩ := hstatus h
    exact ⟨rfl, hs⟩
  | stalled s headers =>
    obtain ⟨rfl, hs⟩ := hstatus h
    exact ⟨rfl, hs⟩
  | complete r =>
    obtain ⟨hr, hs⟩ := hstatus h
    exact ⟨congrArg some hr, hr ▸ hs⟩

/-- No redirection is a success. -/
theorem Status.not_success_of_redirection {s : Status} (h : s.isRedirection = true) :
    s.isSuccess = false := by
  simp only [isRedirection, List.contains_eq_mem, List.mem_cons, List.not_mem_nil, or_false,
    decide_eq_true_eq] at h
  simp only [isSuccess, Bool.and_eq_false_iff, decide_eq_false_iff_not]
  omega

@[simp] theorem Request.redirected_method (r : Request) (s : Status) (target : Url) :
    (r.redirected s target).method = (r.restated s).method := rfl

@[simp] theorem Request.redirected_body (r : Request) (s : Status) (target : Url) :
    (r.redirected s target).body = (r.restated s).body := rfl

/-- **What a redirection makes of a POST**: the same request, or a GET. -/
theorem Request.restated_post {r : Request} {s : Status} (hm : r.method = .post)
    (hs : s.isRedirection = true) :
    (s.repeatsRequest = true ∧ r.restated s = r) ∨
      (s.repeatsRequest = false ∧ (r.restated s).method = .get) := by
  have hhead : r.method ≠ .head := by
    rw [hm]
    decide
  obtain ⟨code⟩ := s
  simp only [Status.isRedirection, List.contains_eq_mem, List.mem_cons, List.not_mem_nil, or_false,
    decide_eq_true_eq] at hs
  rcases hs with rfl | rfl | rfl | rfl | rfl
  · exact .inr ⟨rfl, by simp [restated, hm]⟩
  · exact .inr ⟨rfl, by simp [restated, hm]⟩
  · exact .inr ⟨rfl, by simp [restated, hhead]⟩
  · exact .inl ⟨rfl, by simp [restated]⟩
  · exact .inl ⟨rfl, by simp [restated]⟩

theorem Request.restated_get {r : Request} (s : Status) (hm : r.method = .get) :
    (r.restated s).method = .get := by
  have hhead : r.method ≠ .head := by
    rw [hm]
    decide
  rw [restated, if_neg hhead]
  split
  · rfl
  · split
    · rfl
    · exact hm

/-- Once a GET, always a GET. -/
theorem Chain.get_last {hops : List Exchange} {last : Exchange} (h : Chain request hops last)
    (hm : request.method = .get) : last.request.method = .get := by
  induction h with
  | stop _ => exact hm
  | hop _ _ _ ih => exact ih (Request.restated_get _ hm)

/-- Every reply on the way is a redirection, and so no success. -/
theorem Chain.hops_not_succeeded {hops : List Exchange} {last : Exchange}
    (h : Chain request hops last) : ∀ e ∈ hops, e.succeeded = false := by
  induction h with
  | stop _ => simp
  | hop hd _ _ ih =>
    obtain ⟨hstatus, hs⟩ := Reply.status_of_redirection hd
    intro e he
    rcases List.mem_cons.mp he with rfl | he
    · rw [Exchange.succeeded, hstatus]
      exact Status.not_success_of_redirection hs
    · exact ih e he

/-- **How a POST ends**: as itself, body and all, when every reply on the way asks for the same
request once more, and as a GET otherwise. -/
theorem Chain.post_last {hops : List Exchange} {last : Exchange} (h : Chain request hops last)
    (hm : request.method = .post) :
    ((∀ e ∈ hops, e.repeats = true) ∧ last.request.method = .post ∧ last.request.body = request.body) ∨
      ((¬ ∀ e ∈ hops, e.repeats = true) ∧ last.request.method = .get) := by
  induction h with
  | stop _ => exact .inl ⟨by simp, hm, rfl⟩
  | @hop request reply status target origin url hops last hd _ rest ih =>
    obtain ⟨hstatus, hs⟩ := Reply.status_of_redirection hd
    have hrepeats : Exchange.repeats ⟨request, reply⟩ = status.repeatsRequest := by
      rw [Exchange.repeats, hstatus]
      rfl
    rcases Request.restated_post hm hs with ⟨hr, hsame⟩ | ⟨hr, hget⟩
    · have hmethod : (request.redirected status url).method = request.method :=
        by rw [Request.redirected_method, hsame]
      have hbody : (request.redirected status url).body = request.body :=
        by rw [Request.redirected_body, hsame]
      rcases ih (hmethod.trans hm) with ⟨hall, hpost, hlast⟩ | ⟨hnot, hlast⟩
      · exact .inl ⟨List.forall_mem_cons.mpr ⟨hrepeats.trans hr, hall⟩, hpost, hlast.trans hbody⟩
      · exact .inr ⟨fun hall => hnot (List.forall_mem_cons.mp hall).2, hlast⟩
    · refine .inr ⟨fun hall => ?_, rest.get_last hget⟩
      have hfirst := (List.forall_mem_cons.mp hall).1
      rw [hrepeats, hr] at hfirst
      cases hfirst

end MeshNode
