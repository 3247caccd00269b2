import JudgeQueue.Http.Route
import JudgeQueue.Proofs.Calls.Heartbeat
import JudgeQueue.Proofs.Reachable.Failure
import JudgeQueue.Proofs.Reachable.Recovery
/-!
# Reachable worlds — what is heard of judgehosts

Every request of a judgehost names it in its path. If it is known and the
request is answered, then it has been heard of, so for the time being no sweep
takes anything back from it; if it is not known, the request comes to nothing.
There are two ways in which a judgehost that is at work is not heard of: its
request fails, or it reports an internal error. Such a report does not go by
who makes it at all.
-/

namespace JudgeQueue

variable {w : World} {ctx : Context} {hostname : String}

/-! ## Calls -/

namespace Call

variable {β : Type}

/-- A judgehost asks for the content of a testcase. -/
def IsFetch : Call β → Prop
  | fetchTestcase _ _ => True
  | _ => False

theorem caller?_operation (c : Call β) : (c.operation hostname).caller? = some hostname := by
  cases c <;> rfl

/-- An unknown judgehost is passed over. -/
theorem perform_of_unknown (c : Call β) (hnone : ∀ h ∈ w.store.judgehosts, h.hostname ≠ hostname) :
    ((c.operation hostname).perform ctx w).world.store = w.store ∧
      ((c.operation hostname).perform ctx w).events = [] := by
  have hserves : ¬ w.store.Serves hostname c := by
    rintro ⟨⟨h, hh, hname, -⟩, -⟩
    exact hnone h hh hname
  have hmissing : w.store.judgehosts.find? hostname = none := by
    refine Option.eq_none_iff_forall_ne_some.mpr fun h hfind => ?_
    exact hnone h (Table.mem_of_find? hfind) (Table.key_of_find? hfind)
  have hturned := c.turnedAway hserves ctx
  refine ⟨hturned.store.elim id fun htouched => ?_, hturned.events⟩
  rw [htouched, Store.touchJudgehost_of_unknown hmissing]

/-- A call that fails is recorded at most. -/
theorem perform_error (c : Call β) {e : Error}
    (he : ((c.operation hostname).perform ctx w).answer = .error e) :
    ((c.operation hostname).perform ctx w).events = [] ∧
      (((c.operation hostname).perform ctx w).world.store = w.store ∨
        ((c.operation hostname).perform ctx w).world.store =
          w.store.touchJudgehost hostname ctx.now) := by
  obtain ⟨hevents, hstore⟩ := World.perform_error he
  refine ⟨hevents, hstore.imp_right ?_⟩
  rintro ⟨name, hcaller, htouched⟩
  rw [caller?_operation] at hcaller
  cases hcaller
  exact htouched

/-- Unless it asks for the content of a testcase it is not even that. -/
theorem store_perform_of_error (c : Call β) (hfetch : ¬ c.IsFetch) {e : Error}
    (he : ((c.operation hostname).perform ctx w).answer = .error e) :
    ((c.operation hostname).perform ctx w).world.store = w.store := by
  cases c with
  | fetchTestcase testcaseId kind => exact absurd trivial hfetch
  | _ => exact (transact_error he).2

/-- A call that is answered has been heard of. -/
theorem pollTime_perform (c : Call β) (hknown : ∃ h ∈ w.store.judgehosts, h.hostname = hostname)
    {answer : Option β} (ha : ((c.operation hostname).perform ctx w).answer = .ok answer) :
    ∃ h ∈ ((c.operation hostname).perform ctx w).world.store.judgehosts,
      h.hostname = hostname ∧ h.pollTime = some ctx.now := by
  obtain ⟨h, hh, hname⟩ := hknown
  refine ⟨{ h with pollTime := some ctx.now }, ?_, hname, rfl⟩
  rw [c.judgehosts_perform ha, Store.touchJudgehost, Table.mem_modify]
  exact .inl ⟨h, hh, hname, rfl⟩

end Call

/-- **A sweep leaves a judgehost alone** that has been heard of within the time
that it allows. -/
theorem World.Arises.mem_sweepStale (h : w.Arises) (hfaults : ctx.faults = .none) {timeout : Span}
    {host : Judgehost} (hhost : host ∈ w.store.judgehosts) {seen : Instant}
    (hseen : host.pollTime = some seen) (hle : ctx.now.since seen ≤ timeout) {j : Judging}
    (hj : j ∈ w.store.judgings) (hheld : j.isClaimedBy host.hostname = true) :
    j ∈ ((Operation.sweepStale timeout).perform ctx w).world.store.judgings := by
  have hop : (Operation.sweepStale timeout).IsRecovery w.store := trivial
  obtain ⟨rs, -, hrecovers, -, -⟩ := World.perform_recovers h hfaults hop
  refine (hrecovers.judgings.mem j).mpr (.inl ⟨hj, ?_⟩)
  rintro ⟨-, other, hother, hserver, hstale⟩
  rw [Judging.isClaimedBy, Bool.and_eq_true, decide_eq_true_eq] at hheld
  have hname : host.hostname = other.hostname := Option.some.inj (hheld.2.symm.trans hserver)
  have hsame : host = other := Table.eq_of_key_eq hhost hother hname
  rw [← hsame, hseen] at hstale
  rcases hstale with hnone | ⟨t, ht, hlt⟩
  · cases hnone
  · cases ht
    exact absurd hle (not_le.mpr hlt)

namespace Http

/-! ## Requests of judgehosts -/

/-- The endpoints at which judgehosts get judgings and testcases and report on
them. -/
def Endpoint.ofWork : List Endpoint :=
  [.nextJudging, .nextTestcase, .compilation, .runs]

/-- What becomes of a request of a judgehost: an unknown one is passed over, and
one that is answered is heard of. Nothing is taken back from it until it has
not been heard of for the time that a sweep allows. -/
structure Exchange.Heard (x : Exchange) (w : World) (hostname : String) (now : Instant) : Prop where
  unknown : (∀ h ∈ w.store.judgehosts, h.hostname ≠ hostname) →
    x.world.store = w.store ∧ x.events = []
  recorded : x.response.status = 200 → (∃ h ∈ w.store.judgehosts, h.hostname = hostname) →
    ∃ h ∈ x.world.store.judgehosts, h.hostname = hostname ∧ h.pollTime = some now
  kept : x.response.status = 200 → (∃ h ∈ w.store.judgehosts, h.hostname = hostname) →
    ∀ (timeout : Span) (ctx : Context), ctx.faults = .none → ctx.now.since now ≤ timeout →
      ∀ j ∈ x.world.store.judgings, j.isClaimedBy hostname = true →
        j ∈ ((Operation.sweepStale timeout).perform ctx x.world).world.store.judgings
  failed : x.response.status ≠ 200 → x.events = [] ∧
    (x.world.store = w.store ∨ x.world.store = w.store.touchJudgehost hostname now)

/-- What a call comes to as it is sent. -/
def Exchange.ofOutcome {α : Type} (o : Outcome α) (respond : α → Response) : Exchange where
  response := match o.answer with
    | .ok a => respond a
    | .error cause => .ofError cause
  world := o.world
  events := o.events

/-- Any request comes to what its operation comes to, sent as the endpoint has
it. -/
theorem Endpoint.perform_eq (e : Endpoint) (ctx : Context) (w : World) (input : e.Input) :
    e.perform ctx w input =
      .ofOutcome ((e.operation input).perform ctx w) (e.respond input) := by
  unfold Endpoint.perform Exchange.ofOutcome
  generalize (e.operation input).perform ctx w = outcome
  obtain ⟨answer, world, events⟩ := outcome
  cases answer <;> rfl

/-- An error is never sent as a success. -/
theorem Response.status_ofError (e : Error) : (Response.ofError e).status ≠ 200 := by
  change e.status ≠ 200
  cases e <;> simp [Error.status]

/-- Reading goes on with what has been read, or refuses the request. -/
theorem bind_eq_ok_iff {α β : Type} {x : Except Response α} {f : α → Except Response β} {b : β} :
    (x >>= f) = .ok b ↔ ∃ a, x = .ok a ∧ f a = .ok b := by
  cases x with
  | error refusal => simp [bind, Except.bind]
  | ok a => simp [bind, Except.bind]

variable {e : Endpoint} {hostname : String} {rest : List String} {request : Request}

/-- A request makes a call: it does what the call does, and sends a success
where the call is answered. -/
def Endpoint.Makes {β : Type} (e : Endpoint) (input : e.Input) (hostname : String) (c : Call β) :
    Prop :=
  ∃ respond : Option β → Response, (∀ a, (respond a).status = 200) ∧
    ∀ ctx w, e.perform ctx w input = .ofOutcome ((c.operation hostname).perform ctx w) respond

/-- **A request is a call** of the judgehost that its path names. -/
theorem Endpoint.exists_makes (he : e ∈ Endpoint.ofWork) {input : e.Input}
    (hread : e.read (hostname :: rest) request = .ok input) :
    ∃ (β : Type) (c : Call β), ¬ c.IsFetch ∧ e.Makes input hostname c := by
  simp only [ofWork, List.mem_cons, List.not_mem_nil, or_false] at he
  rcases he with rfl | rfl | rfl | rfl
  · match rest, hread with
    | [], hread =>
      cases hread
      exact ⟨Payload, .claimJudging, id, nextJudging.respond hostname, fun _ => rfl,
        fun _ _ => perform_eq ..⟩
  · match rest, hread with
    | [id], hread =>
      obtain ⟨judgingId, -, hinput⟩ := bind_eq_ok_iff.mp hread
      cases hinput
      exact ⟨Testcase, .claimTestcase judgingId, fun h => h,
        nextTestcase.respond (hostname, judgingId), fun _ => rfl, fun _ _ => perform_eq ..⟩
  · match rest, hread with
    | [id], hread =>
      obtain ⟨judgingId, -, hreport⟩ := bind_eq_ok_iff.mp hread
      obtain ⟨report, -, houtput⟩ := bind_eq_ok_iff.mp hreport
      obtain ⟨output, -, hinput⟩ := bind_eq_ok_iff.mp houtput
      cases hinput
      exact ⟨Judging, .reportCompilation judgingId report.success output, fun h => h,
        compilation.respond (hostname, judgingId, report.success, output), fun _ => rfl,
        fun _ _ => perform_eq ..⟩
  · match rest, hread with
    | [id], hread =>
      obtain ⟨judgingId, -, hbatch⟩ := bind_eq_ok_iff.mp hread
      obtain ⟨batch, -, hchecked⟩ := bind_eq_ok_iff.mp hbatch
      obtain ⟨-, -, hdecoded⟩ := bind_eq_ok_iff.mp hchecked
      obtain ⟨reports, -, hinput⟩ := bind_eq_ok_iff.mp hdecoded
      cases hinput
      exact ⟨Judging, .reportRuns judgingId reports, fun h => h,
        runs.respond (hostname, judgingId, reports), fun _ => rfl, fun _ _ => perform_eq ..⟩

/-- So is one that asks for the content of a testcase. -/
theorem Endpoint.exists_makes_testcaseContent {input : Endpoint.testcaseContent.Input}
    (hread : Endpoint.testcaseContent.read (hostname :: rest) request = .ok input) :
    ∃ c : Call Bytes, Endpoint.testcaseContent.Makes input hostname c := by
  match rest, hread with
  | [id, name], hread =>
    obtain ⟨testcaseId, -, hkind⟩ := bind_eq_ok_iff.mp hread
    obtain ⟨kind, -, hinput⟩ := bind_eq_ok_iff.mp hkind
    cases hinput
    exact ⟨.fetchTestcase testcaseId kind, testcaseContent.respond (hostname, testcaseId, kind),
      fun _ => rfl, fun _ _ => perform_eq ..⟩

/-! ## What is heard of -/

/-- A request that makes a call is heard of as the call is. -/
theorem Endpoint.Makes.heard {β : Type} {c : Call β} {input : e.Input}
    (hmakes : e.Makes input hostname c) {w : World} (h : w.Arises) (ctx : Context) :
    (e.perform ctx w input).Heard w hostname ctx.now := by
  obtain ⟨respond, hsuccess, hsends⟩ := hmakes
  rw [hsends ctx w]
  have hnext : ((c.operation hostname).perform ctx w).world.Arises :=
    h.steps (World.Steps.refl.perform _ ctx)
  have hok : (Exchange.ofOutcome ((c.operation hostname).perform ctx w) respond).response.status =
      200 → ∃ answer, ((c.operation hostname).perform ctx w).answer = .ok answer := by
    intro hstatus
    cases hanswer : ((c.operation hostname).perform ctx w).answer with
    | ok answer => exact ⟨answer, rfl⟩
    | error cause =>
      rw [Exchange.ofOutcome, hanswer] at hstatus
      exact absurd hstatus (Response.status_ofError cause)
  refine ⟨fun hnone => c.perform_of_unknown hnone, fun hstatus hknown => ?_,
    fun hstatus hknown timeout ctx' hfaults hle j hj hheld => ?_, fun hstatus => ?_⟩
  · obtain ⟨answer, hanswer⟩ := hok hstatus
    exact c.pollTime_perform hknown hanswer
  · obtain ⟨answer, hanswer⟩ := hok hstatus
    obtain ⟨host, hhost, rfl, hseen⟩ := c.pollTime_perform hknown hanswer
    exact hnext.mem_sweepStale hfaults hhost hseen hle hj hheld
  · cases hanswer : ((c.operation hostname).perform ctx w).answer with
    | ok answer =>
      rw [Exchange.ofOutcome, hanswer] at hstatus
      exact absurd (hsuccess answer) hstatus
    | error cause => exact c.perform_error hanswer

/-- A judgehost is heard of by every request that an endpoint reads, whatever
becomes of it, and an unknown one is passed over. -/
def Endpoint.HearsAlways (e : Endpoint) : Prop :=
  ∀ (hostname : String) (rest : List String) (request : Request) (input : e.Input),
    e.read (hostname :: rest) request = .ok input →
      ∀ w : World, w.Reachable → ∀ ctx : Context, ctx.faults = .none →
        ((∀ h ∈ w.store.judgehosts, h.hostname ≠ hostname) →
          (e.perform ctx w input).world.store = w.store ∧ (e.perform ctx w input).events = []) ∧
        ((∃ h ∈ w.store.judgehosts, h.hostname = hostname) →
          ∃ h ∈ (e.perform ctx w input).world.store.judgehosts,
            h.hostname = hostname ∧ h.pollTime = some ctx.now)

/-- A minute later. -/
def minuteLater : Context :=
  { World.contestContext with now := ⟨60 * Instant.second, false⟩ }

/-- A judgehost asks for a testcase of a judging. -/
def testcaseRequest (judgingId : String) : Request where
  method := .post
  target := ⟨"/api/v1/judgehosts/host/judgings/" ++ judgingId ++ "/next-testcase", ""⟩
  contentType := none
  body := ⟨.null, false⟩

/-- A judgehost reports an error with a language. -/
def diskFull (hostname : String) : Request where
  method := .post
  target := ⟨"/api/v1/judgehosts/" ++ hostname ++ "/internal-errors", ""⟩
  contentType := some "application/json"
  body := ⟨.object [(some "description", .text (some "disk full")),
    (some "disabled", .object [(some "kind", .text (some "language")),
      (some "language_id", .text (some "c"))])], false⟩

/-- What is read of the report. -/
def diskFullReport : IncidentReport where
  description := "disk full"
  judgehostLog := ""
  disabled := .object [("kind", .text "language"), ("language_id", .text "c")]
  judgingId := none
  contestId := none

/-- Neither holds of all requests. In the small contest a judgehost is not heard
of that asks for a testcase of an unknown judging, and one that is not
registered switches a language off. -/
theorem not_hearsAlways :
    ¬ Endpoint.nextTestcase.HearsAlways ∧ ¬ Endpoint.reportError.HearsAlways := by
  have hreach := World.reachable_contestClaimed
  constructor
  · intro hears
    have hknown : ∃ h ∈ World.contestClaimed.store.judgehosts.rows, h.hostname = "host" := by
      decide +kernel
    have hsilent : ∀ h ∈ (Endpoint.nextTestcase.perform minuteLater World.contestClaimed
        ("host", 99)).world.store.judgehosts.rows, h.pollTime ≠ some minuteLater.now := by
      decide +kernel
    obtain ⟨h, hh, -, hseen⟩ := (hears "host" ["99"] (testcaseRequest "99") ("host", 99) rfl
      World.contestClaimed hreach minuteLater rfl).2 hknown
    exact hsilent h hh hseen
  · intro hears
    have hunknown : ∀ h ∈ World.contestClaimed.store.judgehosts.rows, h.hostname ≠ "ghost" := by
      decide +kernel
    have htold : (Endpoint.reportError.perform minuteLater World.contestClaimed
        diskFullReport).events.length = 1 := by
      decide +kernel
    have hnothing := ((hears "ghost" [] (diskFull "ghost") diskFullReport rfl
      World.contestClaimed hreach minuteLater rfl).1 hunknown).2
    rw [hnothing] at htold
    cases htold

/-- **Judgehosts are heard of by requests that are answered.** An unknown one is
passed over. What fails leaves the store as it was, and so the judgehost is not
heard of; only one that asks for the content of a testcase may be. Who reports
an internal error makes no difference, and nobody is heard of by it. -/
theorem heard_of_answered {w : World} (h : w.Arises) (ctx : Context) (hostname : String)
    (rest : List String) (request : Request) :
    (∀ e ∈ Endpoint.ofWork, ∀ input : e.Input, e.read (hostname :: rest) request = .ok input →
      (e.perform ctx w input).Heard w hostname ctx.now ∧
        ((e.perform ctx w input).response.status ≠ 200 →
          (e.perform ctx w input).world.store = w.store)) ∧
    (∀ input : Endpoint.testcaseContent.Input,
      Endpoint.testcaseContent.read (hostname :: rest) request = .ok input →
        (Endpoint.testcaseContent.perform ctx w input).Heard w hostname ctx.now) ∧
    (∀ other, Endpoint.reportError.read [hostname] request =
      Endpoint.reportError.read [other] request) ∧
    ∀ input : Endpoint.reportError.Input,
      (Endpoint.reportError.perform ctx w input).world.store.pollTime hostname =
        w.store.pollTime hostname := by
  refine ⟨?_, ?_, fun _ => rfl, fun input => ?_⟩
  · intro e he input hread
    obtain ⟨β, c, hfetch, hmakes⟩ := Endpoint.exists_makes he hread
    refine ⟨hmakes.heard h ctx, fun hstatus => ?_⟩
    obtain ⟨respond, hsuccess, hsends⟩ := hmakes
    rw [hsends ctx w] at hstatus ⊢
    cases hanswer : ((c.operation hostname).perform ctx w).answer with
    | ok answer =>
      rw [Exchange.ofOutcome, hanswer] at hstatus
      exact absurd (hsuccess answer) hstatus
    | error cause => exact c.store_perform_of_error hfetch hanswer
  · intro input hread
    obtain ⟨c, hmakes⟩ := Endpoint.exists_makes_testcaseContent hread
    exact hmakes.heard h ctx
  · rw [Endpoint.perform_eq]
    exact transact_events (P := fun _ s => s.pollTime hostname = w.store.pollTime hostname)
      ((Incident.commits_report_pollTime input ctx.now).mono fun _ _ _ hsame => hsame hostname) rfl

/-- In the small contest the judgehost asks for its testcase a minute later. A
sweep that allows half a minute takes nothing back from it then. -/
theorem heard_contestClaimed :
    Endpoint.nextTestcase ∈ Endpoint.ofWork ∧
      Endpoint.nextTestcase.read ["host", "1"] (testcaseRequest "1") = .ok ("host", 1) ∧
      World.contestClaimed.Arises ∧
      (Endpoint.nextTestcase.perform minuteLater World.contestClaimed ("host", 1)).response.status =
        200 ∧
      (Endpoint.nextTestcase.perform minuteLater World.contestClaimed ("host", 1)).Heard
        World.contestClaimed "host" minuteLater.now ∧
      (Endpoint.nextTestcase.perform minuteLater World.contestClaimed
        ("host", 99)).world.store = World.contestClaimed.store ∧
      ∀ j ∈ (Endpoint.nextTestcase.perform minuteLater World.contestClaimed
          ("host", 1)).world.store.judgings, j.isClaimedBy "host" = true →
        j ∈ ((Operation.sweepStale (30 * Instant.second)).perform minuteLater
          (Endpoint.nextTestcase.perform minuteLater World.contestClaimed
            ("host", 1)).world).world.store.judgings := by
  have hwork : Endpoint.nextTestcase ∈ Endpoint.ofWork := by simp [Endpoint.ofWork]
  have harises : World.contestClaimed.Arises := World.reachable_contestClaimed.arises
  have hstatus : (Endpoint.nextTestcase.perform minuteLater World.contestClaimed
      ("host", 1)).response.status = 200 := by decide +kernel
  have hfailed : (Endpoint.nextTestcase.perform minuteLater World.contestClaimed
      ("host", 99)).response.status ≠ 200 := by decide +kernel
  have hknown : ∃ h ∈ World.contestClaimed.store.judgehosts.rows, h.hostname = "host" := by
    decide +kernel
  have hleft : minuteLater.now.since minuteLater.now ≤ 30 * Instant.second := by decide
  obtain ⟨hanswered, -, -, -⟩ :=
    heard_of_answered harises minuteLater "host" ["1"] (testcaseRequest "1")
  obtain ⟨hheard, -⟩ := hanswered _ hwork ("host", 1) rfl
  obtain ⟨hrefused, -, -, -⟩ :=
    heard_of_answered harises minuteLater "host" ["99"] (testcaseRequest "99")
  obtain ⟨-, hsame⟩ := hrefused _ hwork ("host", 99) rfl
  exact ⟨hwork, rfl, harises, hstatus, hheard, hsame hfailed,
    hheard.kept hstatus hknown _ minuteLater rfl hleft⟩

end Http

end JudgeQueue
