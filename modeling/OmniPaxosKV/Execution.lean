import OmniPaxosKV.EndToEnd
import OmniPaxosKV.Tokens

/-!
What is executed of the HTTP requests, with any number of client processes at a server.

Under reused client ids a response may reach the wrong process, and what a caller is told may be
wrong. The way to the decided sequence is not concerned: `executed_once_of_reachable` says that
a request is executed once at most, with its own command, and never after its caller was told
that the connection did not take it.
-/

namespace OmniPaxosKV.Execution

open Common Store Server Crash TestClient Tracking TransSys Cluster Tokens

open EndToEnd (IsRequest Refused Ledger ledger IsSilent silent_of_step)

open Function (update)

variable {Text : Type} {cfg : Config Text} {s s' : State Text}

/-- Where a request is on its way. -/
inductive Place
  | httpRx (p : ProcId)
  | up (link : LinkId)
  | pool
  | log
  deriving DecidableEq

/-- The requests at a place. -/
def tokens (s : State Text) : Place → List Sender
  | .httpRx p => (s.httpRx p).map ApiCommand.tx
  | .up link => (s.up link).map fun a => a.cmd.tx
  | .pool => s.pool.map Entry.tx
  | .log => s.log.map Entry.tx

/-- The answer to a request that no connection took. -/
def disconnected : Reply := .error "Error: server disconnected"

structure Inv (s : State Text) : Prop where
  once : Exclusive (tokens s)
  queued : ∀ p, ∀ cmd ∈ s.httpRx p, IsRequest s.requests p cmd
  up : ∀ link, ∀ a ∈ s.up link, (∃ id, a.message = .Append id a.cmd.kvCmd) ∧
    ∃ p, IsRequest s.requests p a.cmd
  entered : ∀ e ∈ s.log ++ s.pool, ∃ r, s.requests[e.tx]? = some r ∧ r.cmd = e.command.kvCmd
  unstarted : ∀ p, s.phase p = .unstarted → (s.trackers p).answers = []
  returned : ∀ tx r t, s.requests[tx]? = some r → r.returned = some (t, disconnected) →
    ∃ a ∈ (s.trackers r.proc).answers, a.tx = tx ∧ a.reply = disconnected
  refused : ∀ p, ∀ a ∈ (s.trackers p).answers, a.reply = disconnected →
    a.tx < s.requests.length ∧ ∀ place, a.tx ∉ tokens s place

lemma isRequest_lt {requests : List Request} {p : ProcId} {cmd : ApiCommand}
    (h : IsRequest requests p cmd) : cmd.tx < requests.length := by
  obtain ⟨r, hr, -⟩ := h
  exact (List.getElem?_eq_some_iff.mp hr).1

/-- What is on its way was called for. -/
lemma Inv.token_lt (h : Inv s) {place : Place} {tx : Sender} (htx : tx ∈ tokens s place) :
    tx < s.requests.length := by
  have hentry : ∀ e ∈ s.log ++ s.pool, e.tx < s.requests.length := by
    intro e he
    obtain ⟨r, hr, -⟩ := h.entered e he
    exact (List.getElem?_eq_some_iff.mp hr).1
  cases place with
  | httpRx p =>
    obtain ⟨cmd, hcmd, rfl⟩ := List.mem_map.mp htx
    exact isRequest_lt (h.queued p cmd hcmd)
  | up link =>
    obtain ⟨a, ha, rfl⟩ := List.mem_map.mp htx
    obtain ⟨-, p, hreq⟩ := h.up link a ha
    exact isRequest_lt hreq
  | pool =>
    obtain ⟨e, he, rfl⟩ := List.mem_map.mp htx
    exact hentry e (List.mem_append_right _ he)
  | log =>
    obtain ⟨e, he, rfl⟩ := List.mem_map.mp htx
    exact hentry e (List.mem_append_left _ he)

/-- A request that is on its way was not refused. -/
lemma Inv.ne_refused (h : Inv s) {place : Place} {tx : Sender} (htx : tx ∈ tokens s place)
    {p : ProcId} {a : Answer} (ha : a ∈ (s.trackers p).answers) (hreply : a.reply = disconnected) :
    a.tx ≠ tx := fun heq => (h.refused p a ha hreply).2 place (heq ▸ htx)

/-! ### Parts of a step -/

/-- Nothing that concerns the requests changes. -/
lemma Inv.frame (h : Inv s) (htokens : tokens s' = tokens s) (hlog : s'.log = s.log)
    (hpool : s'.pool = s.pool) (hup : s'.up = s.up) (hrx : s'.httpRx = s.httpRx)
    (hreq : s'.requests = s.requests)
    (hphase : ∀ p, s'.phase p = .unstarted → s.phase p = .unstarted)
    (htrackers : ∀ p, (s'.trackers p).answers = (s.trackers p).answers) : Inv s' := by
  refine ⟨htokens ▸ h.once, ?_, ?_, ?_, fun p hp => ?_, fun tx r t hr hret => ?_,
    fun p a ha hreply => ?_⟩
  · rw [hrx, hreq]
    exact h.queued
  · rw [hup, hreq]
    exact h.up
  · rw [hlog, hpool, hreq]
    exact h.entered
  · rw [htrackers]
    exact h.unstarted p (hphase p hp)
  · rw [htrackers]
    exact h.returned tx r t (hreq ▸ hr) hret
  · rw [hreq, htokens]
    exact h.refused p a (htrackers p ▸ ha) hreply

lemma Inv.silent (h : Inv s) (hledger : ledger s' = ledger s) (hphase : s'.phase = s.phase) :
    Inv s' := by
  have hlog : s'.log = s.log := congrArg Ledger.log hledger
  have hpool : s'.pool = s.pool := congrArg Ledger.pool hledger
  have hup : s'.up = s.up := congrArg Ledger.up hledger
  have hrx : s'.httpRx = s.httpRx := congrArg Ledger.httpRx hledger
  have htrackers : s'.trackers = s.trackers := congrArg Ledger.trackers hledger
  have htokens : tokens s' = tokens s := by
    funext place
    cases place <;> simp only [tokens, hlog, hpool, hup, hrx]
  exact h.frame htokens hlog hpool hup hrx (congrArg Ledger.requests hledger)
    (fun p hp => hphase ▸ hp) fun p => by rw [htrackers]

/-- Requests are lost on their way, or taken from it. -/
lemma Inv.lost (h : Inv s) {httpRx : ProcId → List ApiCommand} {up : LinkId → List Sent}
    {pool : List Entry} (hrx : ∀ p, (httpRx p).Sublist (s.httpRx p))
    (hup : ∀ link, (up link).Sublist (s.up link)) (hpool : pool.Sublist s.pool) :
    Inv { s with httpRx := httpRx, up := up, pool := pool } := by
  have hsub : ∀ place, (tokens { s with httpRx := httpRx, up := up, pool := pool } place).Sublist
      (tokens s place) := by
    intro place
    cases place with
    | httpRx p => exact (hrx p).map _
    | up link => exact (hup link).map _
    | pool => exact hpool.map _
    | log => exact List.Sublist.refl _
  refine ⟨h.once.sublist hsub, fun p cmd hcmd => h.queued p cmd ((hrx p).subset hcmd),
    fun link a ha => h.up link a ((hup link).subset ha), fun e he => h.entered e ?_, h.unstarted,
    h.returned, fun p a ha hreply => ?_⟩
  · rcases List.mem_append.mp he with he | he
    · exact List.mem_append_left _ he
    · exact List.mem_append_right _ (hpool.subset he)
  · obtain ⟨hlt, hnone⟩ := h.refused p a ha hreply
    exact ⟨hlt, fun place hx => hnone place ((hsub place).subset hx)⟩

/-- A request that is nowhere comes to a place. -/
lemma Inv.put (h : Inv s) (place : Place) (tx : Sender) (hnowhere : ∀ k, tx ∉ tokens s k)
    (hrefused : ∀ p, ∀ a ∈ (s.trackers p).answers, a.reply = disconnected → a.tx ≠ tx)
    (htokens : tokens s' = update (tokens s) place (tokens s place ++ [tx]))
    (hqueued : ∀ p, ∀ cmd ∈ s'.httpRx p, IsRequest s'.requests p cmd)
    (hup : ∀ link, ∀ a ∈ s'.up link, (∃ id, a.message = .Append id a.cmd.kvCmd) ∧
      ∃ p, IsRequest s'.requests p a.cmd)
    (hentered : ∀ e ∈ s'.log ++ s'.pool,
      ∃ r, s'.requests[e.tx]? = some r ∧ r.cmd = e.command.kvCmd)
    (hreq : s'.requests = s.requests) (hphase : s'.phase = s.phase)
    (htrackers : ∀ p, (s'.trackers p).answers = (s.trackers p).answers) : Inv s' := by
  refine ⟨htokens ▸ h.once.put hnowhere, hqueued, hup, hentered, fun p hp => ?_,
    fun tx' r t hr hret => ?_, fun p a ha hreply => ?_⟩
  · rw [htrackers]
    exact h.unstarted p (hphase ▸ hp)
  · rw [htrackers]
    exact h.returned tx' r t (hreq ▸ hr) hret
  · rw [htrackers] at ha
    obtain ⟨hlt, hnone⟩ := h.refused p a ha hreply
    refine ⟨hreq ▸ hlt, fun k hk => ?_⟩
    rw [htokens] at hk
    rcases mem_update hk with ⟨rfl, hk⟩ | hk
    · rcases List.mem_append.mp hk with hk | hk
      · exact hnone k hk
      · exact hrefused p a ha hreply (List.mem_singleton.mp hk)
    · exact hnone k hk

/-- The client gives answers: those that refuse a request refuse what is nowhere. -/
lemma Inv.answer (h : Inv s) {p : ProcId} {t : Tracker}
    (hmono : ∀ a ∈ (s.trackers p).answers, a ∈ t.answers)
    (hnew : ∀ a ∈ t.answers, a.reply = disconnected → a ∈ (s.trackers p).answers ∨
      a.tx < s.requests.length ∧ ∀ place, a.tx ∉ tokens s place)
    (hphase : s.phase p ≠ .unstarted) : Inv { s with trackers := update s.trackers p t } := by
  refine ⟨h.once, h.queued, h.up, h.entered, fun q hq => ?_, fun tx r time hr hret => ?_,
    fun q a ha hreply => ?_⟩
  · have hqp : q ≠ p := fun heq => hphase (heq ▸ hq)
    simpa [hqp] using h.unstarted q hq
  · obtain ⟨a, ha, hrest⟩ := h.returned tx r time hr hret
    refine ⟨a, ?_, hrest⟩
    by_cases hqp : r.proc = p
    · rw [hqp] at ha ⊢
      simpa using hmono a ha
    · simpa [hqp] using ha
  · by_cases hqp : q = p
    · subst hqp
      rcases hnew a (by simpa using ha) hreply with hold | hnowhere
      · exact h.refused q a hold hreply
      · exact hnowhere
    · exact h.refused q a (by simpa [hqp] using ha) hreply

/-- An event that is not a command of the shim. -/
lemma Inv.event (h : Inv s) {p : ProcId} {e : Event} (he : s.event p e = some s')
    (hapi : ∀ now cmd, e ≠ .api now cmd) : Inv s' := by
  obtain ⟨hun, t, cmds, sent, ht, -, -, hsub, hcmds, -, rfl⟩ := State.event_cases he
  have hnone : cmds = [] := List.eq_nil_iff_forall_not_mem.mpr fun cmd hcmd => by
    obtain ⟨now, hnow⟩ := hcmds cmd hcmd
    exact hapi now cmd hnow
  obtain rfl : sent = [] := by simpa [hnone] using hsub
  obtain ⟨answers, hanswers⟩ := step_answers ht
  have h' := h.answer (t := t) (fun a ha => hanswers ▸ List.mem_append_left _ ha)
    (fun a ha hreply => Or.inl ((step_gives ht ha).resolve_right fun hgives => by
      rw [hreply] at hgives
      rcases hgives with ⟨⟨now, cmd, hnow⟩, -⟩ | ⟨-, hmsg⟩
      · exact hapi now cmd hnow
      · simp at hmsg)) hun
  simpa using h'

/-- What a command of the shim does: it is refused, or sent. -/
lemma step_api_cases {t t' : Tracker} {now : Timestamp} {cmd : ApiCommand}
    (ht : t.step (.api now cmd) = some t') :
    (t'.accepted = t.accepted ∧
      t'.answers = t.answers ++ [⟨.api now cmd, cmd.tx, disconnected⟩]) ∨
    ∃ link id, t'.accepted = t.accepted ++ [⟨link, .Append id cmd.kvCmd, cmd⟩] ∧
      t'.answers = t.answers := by
  obtain ⟨-, rfl⟩ := step_api ht
  rcases handleApi_cases t.client now cmd with ⟨n, heq⟩ | ⟨n, link, d, puts, gets, -, heq, -⟩
  · exact Or.inl (by simp [heq, Tracker.after, disconnected])
  · exact Or.inr ⟨link, t.client.nextRequestId, by simp [heq, Tracker.after]⟩

/-- The client takes a command of the shim, and sends it or refuses it. -/
lemma Inv.clientApi (h : Inv s) {p : ProcId} {i : ℕ} {now : Timestamp} {cmd : ApiCommand}
    (hi : (s.httpRx p)[i]? = some cmd)
    (he : State.event { s with httpRx := update s.httpRx p ((s.httpRx p).eraseIdx i) } p
      (.api now cmd) = some s') : Inv s' := by
  have hreq := h.queued p cmd (List.mem_of_getElem? hi)
  have htoken : (tokens s (.httpRx p))[i]? = some cmd.tx := by simp [tokens, hi]
  set s₁ : State Text := { s with httpRx := update s.httpRx p ((s.httpRx p).eraseIdx i) } with hs₁
  have htokens : tokens s₁ =
      update (tokens s) (.httpRx p) ((tokens s (.httpRx p)).eraseIdx i) := by
    funext place
    cases place with
    | httpRx q =>
      by_cases hq : q = p
      · subst hq
        simp [tokens, hs₁, List.eraseIdx_map]
      · simp [tokens, hs₁, hq]
    | _ => rfl
  have hnowhere : ∀ place, cmd.tx ∉ tokens s₁ place := htokens ▸ (h.once.take htoken).2
  have h₁ : Inv s₁ := h.lost (update_sublist (List.eraseIdx_sublist _ _))
    (fun _ => List.Sublist.refl _) (List.Sublist.refl _)
  obtain ⟨hun, t, cmds, sent, ht, -, haccepted, -, -, -, rfl⟩ := State.event_cases he
  rcases step_api_cases ht with ⟨hacc, hans⟩ | ⟨link, id, hacc, hans⟩
  · obtain rfl : sent = [] := by simpa [hacc, hs₁] using haccepted
    have h₂ := h₁.answer (p := p) (t := t) (fun a ha => by simp [hans, ha]) (fun a ha _ => by
      rw [hans] at ha
      rcases List.mem_append.mp ha with ha | ha
      · exact Or.inl ha
      · rw [List.mem_singleton.mp ha]
        exact Or.inr ⟨isRequest_lt hreq, hnowhere⟩) hun
    simpa using h₂
  · obtain rfl : sent = [⟨link, .Append id cmd.kvCmd, cmd⟩] :=
      (List.append_cancel_left (hacc.symm.trans haccepted)).symm
    refine h₁.put (.up link) _ hnowhere (fun q a ha => h.ne_refused
      (List.mem_of_getElem? htoken) ha) ?_ h₁.queued (fun l a ha => ?_) h₁.entered rfl rfl
      fun q => ?_
    · funext place
      cases place with
      | up l =>
        by_cases hl : l = link
        · subst hl
          simp [tokens]
        · simp [tokens, hl, Ne.symm hl]
      | _ => rfl
    · rcases List.mem_append.mp ha with ha | ha
      · exact h₁.up l a ha
      · obtain rfl := List.mem_singleton.mp (List.mem_filter.mp ha).1
        exact ⟨⟨id, rfl⟩, p, hreq⟩
    · by_cases hq : q = p
      · subst hq
        simp [hans]
      · simp [hq]

/-- An HTTP handler hands a new request to the client. -/
lemma Inv.request (h : Inv s) {p : ProcId} {cmd : ApiCommand} (hs : s.request p cmd = some s')
    (htx : cmd.tx = s.requests.length) : Inv s' := by
  unfold State.request at hs
  split_ifs at hs
  obtain rfl := Option.some.inj hs
  set new : Request := ⟨p, cmd.kvCmd, s.clock, none⟩ with hnew
  have hmono : ∀ q c, IsRequest s.requests q c → IsRequest (s.requests ++ [new]) q c := by
    rintro q c ⟨r, hr, hrest⟩
    exact ⟨r, getElem?_append_some hr, hrest⟩
  have hup : ∀ link, ∀ a ∈ s.up link, (∃ id, a.message = .Append id a.cmd.kvCmd) ∧
      ∃ q, IsRequest (s.requests ++ [new]) q a.cmd := by
    intro link a ha
    obtain ⟨hid, q, hq⟩ := h.up link a ha
    exact ⟨hid, q, hmono q _ hq⟩
  have hentered : ∀ e ∈ s.log ++ s.pool,
      ∃ r, (s.requests ++ [new])[e.tx]? = some r ∧ r.cmd = e.command.kvCmd := by
    intro e he
    obtain ⟨r, hr, hcmd⟩ := h.entered e he
    exact ⟨r, getElem?_append_some hr, hcmd⟩
  -- the request is called first, and then handed over
  have h₁ : Inv { s with requests := s.requests ++ [new] } := by
    refine ⟨h.once, fun q c hc => hmono q c (h.queued q c hc), hup, hentered, h.unstarted,
      fun tx r t hr hret => ?_, fun q a ha hreply => ?_⟩
    · by_cases hlt : tx < s.requests.length
      · exact h.returned tx r t (by rwa [List.getElem?_append_left hlt] at hr) hret
      · rw [List.getElem?_append_right (not_lt.mp hlt)] at hr
        obtain rfl : r = new := List.mem_singleton.mp (List.mem_of_getElem? hr)
        cases hret
    · obtain ⟨hlt, hnone⟩ := h.refused q a ha hreply
      exact ⟨hlt.trans_le (by simp), hnone⟩
  refine h₁.put (.httpRx p) cmd.tx (fun place hmem => ?_)
    (fun q a ha hreply heq => ?_) ?_ (fun q c hc => ?_) h₁.up h₁.entered rfl rfl fun _ => rfl
  · exact (h.token_lt hmem).ne htx
  · exact (h.refused q a ha hreply).1.ne (heq.trans htx)
  · funext place
    cases place with
    | httpRx q =>
      by_cases hq : q = p
      · subst hq
        simp [tokens]
      · simp [tokens, hq]
    | _ => rfl
  · by_cases hq : q = p
    · subst hq
      have hc' : c ∈ s.httpRx q ∨ c = cmd := by simpa using hc
      rcases hc' with hc' | rfl
      · exact h₁.queued q c hc'
      · exact ⟨new, by simp [htx], rfl, rfl⟩
    · exact h₁.queued q c (by simpa [hq] using hc)

/-- An HTTP handler returns what the client answered, or an error of its own. -/
lemma Inv.respond (h : Inv s) {tx : Sender} {reply : Reply} (hs : s.respond tx reply = some s')
    (hans : ∀ r, s.requests[tx]? = some r → reply = disconnected →
      ∃ a ∈ (s.trackers r.proc).answers, a.tx = tx ∧ a.reply = disconnected) : Inv s' := by
  unfold State.respond at hs
  split at hs
  case h_2 => cases hs
  case h_1 r hr =>
  split_ifs at hs with hret
  obtain rfl := Option.some.inj hs
  set r' : Request := { r with returned := some (s.clock, reply) } with hr'
  have hlt : tx < s.requests.length := (List.getElem?_eq_some_iff.mp hr).1
  -- the requests are as they were but for what they returned
  have hmono : ∀ (i : ℕ) (q : Request), s.requests[i]? = some q →
      ∃ q' : Request, (s.requests.set tx r')[i]? = some q' ∧ q'.proc = q.proc ∧ q'.cmd = q.cmd := by
    intro i q hq
    by_cases hi : i = tx
    · subst hi
      obtain rfl := Option.some.inj (hr.symm.trans hq)
      exact ⟨r', List.getElem?_set_self hlt, rfl, rfl⟩
    · exact ⟨q, by rw [List.getElem?_set_ne (Ne.symm hi)]; exact hq, rfl, rfl⟩
  have hreq : ∀ q c, IsRequest s.requests q c → IsRequest (s.requests.set tx r') q c := by
    rintro q c ⟨x, hx, hproc, hcmd⟩
    obtain ⟨x', hx', hproc', hcmd'⟩ := hmono _ _ hx
    exact ⟨x', hx', hproc'.trans hproc, hcmd'.trans hcmd⟩
  refine ⟨h.once, fun q c hc => hreq q c (h.queued q c hc), fun link a ha => ?_, fun e he => ?_,
    h.unstarted, fun i q t hq hqret => ?_, fun q a ha hreply => ?_⟩
  · obtain ⟨hid, q, hq⟩ := h.up link a ha
    exact ⟨hid, q, hreq q _ hq⟩
  · obtain ⟨x, hx, hcmd⟩ := h.entered e he
    obtain ⟨x', hx', -, hcmd'⟩ := hmono _ _ hx
    exact ⟨x', hx', hcmd'.trans hcmd⟩
  · by_cases hi : i = tx
    · subst hi
      have hq' : q = r' := Option.some.inj (hq.symm.trans (List.getElem?_set_self hlt))
      subst hq'
      obtain ⟨-, rfl⟩ := Prod.mk.inj (Option.some.inj hqret)
      exact hans r hr rfl
    · rw [List.getElem?_set_ne (Ne.symm hi)] at hq
      exact h.returned i q t hq hqret
  · obtain ⟨hlt', hnone⟩ := h.refused q a ha hreply
    exact ⟨by simpa using hlt', hnone⟩

/-- A server appends the first request on a link. -/
lemma Inv.appendToLog (h : Inv s) {link : LinkId} {a : Sent} {rest : List Sent} (n : NodeId)
    (client : ClientId) (p : ProcId) (hup : s.up link = a :: rest) :
    Inv (State.appendToLog { s with up := update s.up link rest } n client p a) := by
  obtain ⟨⟨id, hmsg⟩, q, r, hr, -, hcmd⟩ := h.up link a (by simp [hup])
  set s₁ : State Text := { s with up := update s.up link rest } with hs₁
  have htoken : (tokens s (.up link))[0]? = some a.cmd.tx := by simp [tokens, hup]
  have htokens : tokens s₁ = update (tokens s) (.up link) ((tokens s (.up link)).eraseIdx 0) := by
    funext place
    cases place with
    | up l =>
      by_cases hl : l = link
      · subst hl
        simp [tokens, hs₁, hup]
      · simp [tokens, hs₁, hl]
    | _ => rfl
  have hnowhere : ∀ place, a.cmd.tx ∉ tokens s₁ place := htokens ▸ (h.once.take htoken).2
  have hrest : rest.Sublist (s.up link) := by
    rw [hup]
    exact List.sublist_cons_self _ _
  have h₁ : Inv s₁ := h.lost (fun _ => List.Sublist.refl _) (update_sublist hrest)
    (List.Sublist.refl _)
  have hstate : State.appendToLog s₁ n client p a =
      { s₁ with pool := s.pool ++ [⟨⟨client, n, id, a.cmd.kvCmd⟩, p, a.cmd.tx⟩] } := by
    simp only [State.appendToLog, hmsg, hs₁]
  rw [hstate]
  refine h₁.put .pool _ hnowhere
    (fun q a ha => h.ne_refused (List.mem_of_getElem? htoken) ha) ?_ h₁.queued h₁.up
    (fun e he => ?_) rfl rfl fun _ => rfl
  · funext place
    cases place with
    | pool => simp [tokens, hs₁]
    | _ => rfl
  · have he' : e ∈ s.log ++ s.pool ∨ e = ⟨⟨client, n, id, a.cmd.kvCmd⟩, p, a.cmd.tx⟩ := by
      simpa [or_assoc, hs₁] using he
    rcases he' with he' | rfl
    · exact h₁.entered e he'
    · exact ⟨r, hr, hcmd⟩

/-- An entry is decided. -/
lemma Inv.decided (h : Inv s) {i : ℕ} {e : Entry} (hi : s.pool[i]? = some e) :
    Inv { s with log := s.log ++ [e], pool := s.pool.eraseIdx i } := by
  set s₁ : State Text := { s with pool := s.pool.eraseIdx i } with hs₁
  have htoken : (tokens s .pool)[i]? = some e.tx := by simp [tokens, hi]
  have htokens : tokens s₁ = update (tokens s) .pool ((tokens s .pool).eraseIdx i) := by
    funext place
    cases place with
    | pool => simp [tokens, hs₁, List.eraseIdx_map]
    | _ => rfl
  have hnowhere : ∀ place, e.tx ∉ tokens s₁ place := htokens ▸ (h.once.take htoken).2
  have h₁ : Inv s₁ := h.lost (fun _ => List.Sublist.refl _) (fun _ => List.Sublist.refl _)
    (List.eraseIdx_sublist _ _)
  refine h₁.put .log _ hnowhere
    (fun q a ha => h.ne_refused (List.mem_of_getElem? htoken) ha) ?_ h₁.queued h₁.up
    (fun x hx => ?_) rfl rfl fun _ => rfl
  · funext place
    cases place with
    | log => simp [tokens, hs₁]
    | _ => rfl
  · have hx' : x ∈ s₁.log ++ s₁.pool ∨ x = e := by
      simp only [List.mem_append, List.mem_singleton] at hx ⊢
      tauto
    rcases hx' with hx' | rfl
    · exact h₁.entered x hx'
    · exact h.entered x (List.mem_append_right _ (List.mem_of_getElem? hi))

lemma Inv.setPhase (h : Inv s) (p : ProcId) {phase : Phase} (hne : phase ≠ .unstarted) :
    Inv (s.setPhase p phase) := by
  refine h.frame rfl rfl rfl rfl rfl rfl (fun q hq => ?_) fun _ => rfl
  by_cases hqp : q = p
  · subst hqp
    simp [State.setPhase, hne] at hq
  · simpa [State.setPhase, hqp] using hq

lemma Inv.takeMessage (h : Inv s) {p : ProcId} {now : Timestamp} {msg : ServerMessage}
    (hs : s.takeMessage p now msg = some s') : Inv s' := by
  unfold State.takeMessage at hs
  split at hs
  · split at hs
    · obtain rfl := Option.some.inj hs
      exact h.setPhase p (by simp)
    · obtain rfl := Option.some.inj hs
      exact h
    · obtain rfl := Option.some.inj hs
      exact h
  · split at hs
    · rename_i s₁ hevent
      obtain rfl := Option.some.inj hs
      exact h.event hevent (by simp)
    · obtain rfl := Option.some.inj hs
      exact h.setPhase p (by simp)
  · cases hs
  · cases hs
  · cases hs
  · cases hs

lemma Inv.procStarts (h : Inv s) {p : ProcId} (hp : s.phase p = .unstarted) (link : LinkId) :
    Inv { (s.openLink p).setPhase p .waiting with
      trackers := update s.trackers p (Tracker.new (cfg.home p) link) } := by
  have hopen : Inv (s.openLink p) := h.silent rfl rfl
  have h' : Inv ((s.openLink p).setPhase p .waiting) := hopen.setPhase p (by simp)
  refine h'.frame rfl rfl rfl rfl rfl rfl (fun _ hq => hq) fun q => ?_
  by_cases hq : q = p
  · subst hq
    have hnone : (s.trackers q).answers = [] := h.unstarted q hp
    simp [Tracker.new, State.setPhase, State.openLink, hnone]
  · simp [State.setPhase, State.openLink, hq]

/-- **One step** of the deployment, as the requests on their way see it. -/
theorem step_inv {a : Action Text} (h : Inv s) (hs : step cfg s a = some s') : Inv s' := by
  have hsilent : IsSilent a → Inv s' := fun ha =>
    h.silent (silent_of_step ha hs).1 (silent_of_step ha hs).2
  cases a with
  | procStarts p =>
    simp only [step] at hs
    split_ifs at hs with hc
    obtain rfl := Option.some.inj hs
    exact h.procStarts hc.1 _
  | procExits p =>
    simp only [step] at hs
    split_ifs at hs
    obtain rfl := Option.some.inj hs
    exact h.setPhase p (by simp)
  | httpPut p key value => exact h.request hs rfl
  | httpGet p key => exact h.request hs rfl
  | httpReturns tx =>
    simp only [step, Option.bind_eq_some_iff] at hs
    obtain ⟨r, hr, a, hfind, hs⟩ := hs
    refine h.respond hs fun r' hr' hreply => ⟨a, ?_, ?_, hreply⟩
    · obtain rfl : r = r' := Option.some.inj (hr.symm.trans hr')
      exact List.mem_of_find?_eq_some hfind
    · simpa using List.find?_some hfind
  | httpFails tx errorMsg =>
    simp only [step] at hs
    split_ifs at hs with hmem
    refine h.respond hs fun _ _ hreply => ?_
    obtain rfl := Reply.error.inj hreply
    simp [httpErrors] at hmem
  | clientApi p i now =>
    simp only [step] at hs
    split at hs
    · rename_i cmd hrx
      split_ifs at hs
      exact h.clientApi hrx hs
    · cases hs
  | clientMessage link now =>
    simp only [step, Option.bind_eq_some_iff] at hs
    obtain ⟨p, -, hs⟩ := hs
    split at hs
    · rename_i msg rest hdown
      have h' : Inv { s with down := update s.down link rest } := h.silent rfl rfl
      exact h'.takeMessage hs
    · cases hs
  | clientTimer p =>
    simp only [step] at hs
    split_ifs at hs
    obtain ⟨s₁, hevent, rfl⟩ := Option.map_eq_some_iff.mp hs
    exact (h.event hevent (by simp)).setPhase p (by simp)
  | clientReconnects p =>
    simp only [step] at hs
    split_ifs at hs
    obtain ⟨s₁, hevent, rfl⟩ := Option.map_eq_some_iff.mp hs
    have hopen : Inv (s.openLink p) := h.silent rfl rfl
    exact (hopen.event hevent (by simp)).setPhase p (by simp)
  | clientReaderEnds link =>
    simp only [step, Option.bind_eq_some_iff] at hs
    obtain ⟨p, -, hs⟩ := hs
    exact h.event hs (by simp)
  | clientWriterEnds link =>
    simp only [step, Option.bind_eq_some_iff] at hs
    obtain ⟨p, -, hs⟩ := hs
    exact h.event hs (by simp)
  | register link => exact hsilent trivial
  | applyConnection n i => exact hsilent trivial
  | serverWriterEnds n client => exact hsilent trivial
  | handleClientMessage link =>
    simp only [step, Option.bind_eq_some_iff] at hs
    obtain ⟨p, -, hs⟩ := hs
    split at hs
    · rename_i client a rest hend hup
      obtain rfl := Option.some.inj hs
      exact h.appendToLog _ _ _ hup
    · cases hs
    · cases hs
    · cases hs
  | loseUp link i =>
    obtain rfl := Option.some.inj hs
    exact h.lost (fun _ => List.Sublist.refl _) (update_sublist (List.eraseIdx_sublist _ _))
      (List.Sublist.refl _)
  | loseDown link i => exact hsilent trivial
  | decided i =>
    simp only [step] at hs
    split at hs
    · rename_i e hi
      obtain rfl := Option.some.inj hs
      exact h.decided hi
    · cases hs
  | node n a => exact hsilent trivial
  | startSignals n startTime => exact hsilent trivial

lemma inv_of_reachable (h : (system cfg).Reachable s) : Inv s := by
  refine System.Reaches.invariant (I := Inv) ?_ ?_ h
  · rintro s ⟨files, -, rfl⟩
    refine ⟨⟨fun place => ?_, fun place place' x hx => ?_⟩, by simp [start], by simp [start],
      by simp [start], by simp [start, Tracker.new], by simp [start], by simp [start, Tracker.new]⟩
    · cases place <;> simp [tokens, start]
    · cases place <;> simp [tokens, start] at hx
  · intro s a s' hinv hs _
    obtain ⟨s₁, hstep, rfl⟩ := Option.map_eq_some_iff.mp hs
    exact (step_inv hinv hstep).frame rfl rfl rfl rfl rfl rfl (fun _ hq => hq) fun _ => rfl

/-- **Executed once at most**: whatever crashes, is lost or is registered under which id, no
request is in the decided sequence twice, what is in it is the command of a request, and a request
whose caller was told that no connection took it is neither there nor on its way. -/
theorem executed_once_of_reachable (h : (system cfg).Reachable s) :
    ((s.log ++ s.pool).map Entry.tx).Nodup ∧
    (∀ e ∈ s.log ++ s.pool, ∃ r, s.requests[e.tx]? = some r ∧ r.cmd = e.command.kvCmd) ∧
    ∀ tx r, s.requests[tx]? = some r → Refused r →
      (∀ e ∈ s.log ++ s.pool, e.tx ≠ tx) ∧ ∀ link, ∀ a ∈ s.up link, a.cmd.tx ≠ tx := by
  have hinv := inv_of_reachable h
  refine ⟨?_, hinv.entered, fun tx r hr hrefused => ?_⟩
  · rw [List.map_append]
    refine List.nodup_append.mpr ⟨hinv.once.nodup .log, hinv.once.nodup .pool, ?_⟩
    rintro x hx y hy rfl
    cases hinv.once.apart .log .pool x hx hy
  · obtain ⟨t, hret⟩ := hrefused
    obtain ⟨a, ha, rfl, hreply⟩ := hinv.returned tx r t hr hret
    have hnone := (hinv.refused r.proc a ha hreply).2
    refine ⟨fun e he heq => ?_, fun link b hb heq => ?_⟩
    · rcases List.mem_append.mp he with he | he
      · exact hnone .log (heq ▸ List.mem_map_of_mem he)
      · exact hnone .pool (heq ▸ List.mem_map_of_mem he)
    · have hmem : b.cmd.tx ∈ tokens s (.up link) :=
        List.mem_map_of_mem (f := fun a : Sent => a.cmd.tx) hb
      exact hnone (.up link) (heq ▸ hmem)

/-- Process 1 is told that its first put is done, which is lost, and its second one refused. -/
def misrouted : List (Action (Option DatabaseSnapshot)) :=
  Routing.reusedIdPending ++
    [.httpReturns 1, .clientWriterEnds 1, .httpPut 1 "z" "3", .clientApi 1 0 11, .httpReturns 2]

theorem executed_once_misrouted : ∃ s,
    (system Routing.oneServer).run Routing.oneServerStart misrouted = some s ∧
    s.requests.map (fun r => r.returned.map Prod.snd) = [none, some .ok, some disconnected] ∧
    (s.log ++ s.pool).map Entry.tx = [0] ∧ ∀ e ∈ s.log ++ s.pool, e.tx ≠ 2 := by
  obtain ⟨s, hrun, hret, hlog, r, hr, hrefused⟩ : ∃ s,
      (system Routing.oneServer).run Routing.oneServerStart misrouted = some s ∧
      s.requests.map (fun r => r.returned.map Prod.snd) = [none, some .ok, some disconnected] ∧
      (s.log ++ s.pool).map Entry.tx = [0] ∧ ∃ r, s.requests[2]? = some r ∧ Refused r :=
    ⟨_, rfl, by decide, by decide, _, rfl, _, rfl⟩
  have hinit : (system Routing.oneServer).init Routing.oneServerStart :=
    ⟨fun _ _ => none, by simp, rfl⟩
  have hreach := System.Reachable.run (.init hinit) misrouted hrun
  exact ⟨s, hrun, hret, hlog, ((executed_once_of_reachable hreach).2.2 2 r hr hrefused).1⟩

end OmniPaxosKV.Execution
