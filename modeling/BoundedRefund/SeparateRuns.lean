import BoundedRefund.Kept
import BoundedRefund.OwnOrders

/-!
# Separate runs do not notice each other

Every statement of a run that keeps to its order finds on the rows of its own what it finds in
the database, and leaves the others alone (`KeepsToOwn`).  So runs that are opened each for an
order of its own are isolated, although no statement of theirs is confined to these rows and
no two of their statements belong to one transaction (`separate_runs_isolated`): wherever the
runs have got to, each of them is where it would be had it performed as many statements on the
database alone, and it ends with the report it would have ended with.

The program is walked here once more: what a stage may do depends on what the one before has
returned (a proposal for the order of the run, a permit of its own), and a closure class of
programs has no word for that.
-/

namespace BoundedRefund

open Concurrent Relational

/-! ## The estate of a run -/

/-- The call, with what it remembers of the database reduced to a part. -/
def Call.trim (part : Database → Database) (call : Call) : Call :=
  { call with start := ⟨part call.start.shared, call.start.own⟩ }

/-- The history of a run with only its own part of each database in it. -/
def Local.trim (part : Database → Database) (l : Local) : Local :=
  { l with history := l.history.map (Call.trim part) }

namespace Runs

variable {ι : Type} (runs : Runs ι)

/-- The session has nothing on its mind but the order: the script, the changes of the injector
and the last execution are all about it. -/
structure Minds (world : Database) (i : ι) (s : Session) : Prop where
  proposals : ∀ raw ∈ s.planner.proposals, ∀ proposal,
    validate (runs.runners i).intFromText raw = .ok proposal → proposal.orderId = runs.orderId i
  changes : ∀ change, s.MayInject change → ∀ resource,
    Resource.ofString? change.resource = some resource →
      world.Belongs (runs.orderId i) change.resourceId resource
  presented : ∀ permitId proposal, s.lastExecution = some (permitId, proposal) →
    runs.PermitId i permitId ∧ proposal.orderId = runs.orderId i

/-- The part of the database a run works on, and what it minds about the rest. -/
def estate (world : Database) (i : ι) : Estate Database Local where
  part := runs.own i
  trim := Local.trim (runs.own i)
  spares db db' := runs.others i db' = runs.others i db
  spares_refl _ := rfl
  legal := runs.Unmixed world
  minds l := runs.Minds world i l.session

variable {runs} {world : Database} {i : ι}

/-- What a session minds hangs on its script, its failures and its last permit. -/
theorem Minds.congr {s s' : Session} (h : runs.Minds world i s)
    (hproposals : s'.planner.proposals = s.planner.proposals)
    (hinjector : s'.injector.map FailureInjector.spec = s.injector.map FailureInjector.spec)
    (hlast : s'.lastExecution = s.lastExecution) : runs.Minds world i s' where
  proposals := hproposals ▸ h.proposals
  changes change hmay := by
    obtain ⟨injector', hi', entry, hentry, hmem⟩ := hmay
    rw [hi', Option.map_some] at hinjector
    obtain ⟨injector, hi, hspec⟩ := Option.map_eq_some_iff.mp hinjector.symm
    exact h.changes change ⟨injector, hi, entry, hspec ▸ hentry, hmem⟩
  presented := hlast ▸ h.presented

/-- A run begins with its own order in mind. -/
theorem Minds.start (hsep : runs.Separate world) :
    runs.Minds world i ((runs.runners i).start (runs.proposals i) (runs.failures i)).session where
  proposals := hsep.proposals i
  changes change hmay := by
    obtain ⟨injector, hi, entry, hentry, hmem⟩ := hmay
    cases hi
    exact hsep.changes i entry hentry change hmem
  presented _ _ hlast := by cases hlast

end Runs

/-- Either of two texts that are the order's id is it. -/
theorem textOr_same {text fallback orderId : String} (h : text = orderId)
    (h' : fallback = orderId) : textOr text fallback = orderId := by
  unfold textOr
  split_ifs
  · exact h'
  · exact h

/-- Every statement of the program keeps to the rows of the run's own. -/
abbrev KeepsToOwn {ι α : Type} (runs : Runs ι) (world : Database) (i : ι) (Q : α → Prop)
    (p : Py α) : Prop :=
  p.KeepsTo (runs.estate world i) Q

namespace KeepsToOwn

variable {ι : Type} {runs : Runs ι} {world : Database} {i : ι}
variable {α β : Type} {Q : α → Prop} {p : Py α}

/-! ## Statements -/

theorem ret {a : α} (h : Q a) : KeepsToOwn runs world i Q (pure a) := Prog.KeepsTo.ret h

theorem fail (e : PyError) : KeepsToOwn runs world i Q (throw e : Py α) :=
  Prog.KeepsTo.fail e

theorem raising {r : Except PyError α} (h : ∀ a, r = .ok a → Q a) :
    KeepsToOwn runs world i Q (Py.raising r) := .ofExcept h

theorem bind {R : β → Prop} {k : α → Py β} (hp : KeepsToOwn runs world i Q p)
    (hk : ∀ a, Q a → KeepsToOwn runs world i R (k a)) :
    KeepsToOwn runs world i R (p >>= k) := Prog.KeepsTo.bind hp hk

/-- A handler keeps to the part as well. -/
theorem tryCatch {handler : PyError → Py α} (hp : KeepsToOwn runs world i Q p)
    (hh : ∀ e, KeepsToOwn runs world i Q (handler e)) :
    KeepsToOwn runs world i Q (MonadExcept.tryCatch p handler) := Prog.KeepsTo.tryCatch hp hh

/-- A query that the rows of its own answer. -/
theorem query {g : Database → Except PyError α}
    (h : ∀ db, runs.Unmixed world db → g (runs.own i db) = g db ∧ ∀ a, g db = .ok a → Q a) :
    KeepsToOwn runs world i Q (Py.query g) :=
  .read fun v hlegal _ => h v.shared hlegal

theorem own {g : Session → α} (h : ∀ s, runs.Minds world i s → Q (g s)) :
    KeepsToOwn runs world i Q (Py.own g) := by
  refine .read fun v _ hminds => ⟨rfl, fun a ha => ?_⟩
  cases ha
  exact h v.own.session hminds

/-- A change of the session keeps what it minds. -/
theorem update {f : Session → α × Session}
    (h : ∀ s, runs.Minds world i s → Q (f s).1 ∧ runs.Minds world i (f s).2) :
    KeepsToOwn runs world i Q (Py.update f) := by
  refine .atomically fun v hlegal hminds => ?_
  obtain ⟨hQ, hnext⟩ := h v.own.session hminds
  refine ⟨⟨rfl, rfl, hlegal, hnext⟩, rfl, fun a ha => ?_⟩
  cases ha
  exact hQ

theorem touch {f : Session → Session}
    (h : ∀ s, runs.Minds world i s → runs.Minds world i (f s)) :
    KeepsToOwn runs world i (fun _ => True) (Py.touch f) :=
  update fun s hs => ⟨trivial, h s hs⟩

/-- A transaction that makes of the rows of its own what it makes of the database. -/
theorem transaction {t : Database → Except PyError (α × Database)}
    (hown : ∀ db, runs.Unmixed world db → t (runs.own i db) = runs.onOwn i (t db))
    (hothers : ∀ db a db', runs.Unmixed world db → t db = .ok (a, db') →
      runs.others i db' = runs.others i db ∧ runs.Unmixed world db' ∧ Q a) :
    KeepsToOwn runs world i Q (Py.transaction t) := by
  refine Prog.KeepsTo.transaction (fun v a db ht => ?_) (fun v e ht => ?_) hown hothers
  · rw [ht]
  · rw [ht]

theorem now (clock : Clock) : KeepsToOwn runs world i (fun _ => True) (Py.now clock) :=
  update fun _ hs => ⟨trivial, hs.congr rfl rfl rfl⟩

theorem record (tool : String) (arguments : List (String × PlainValue)) :
    KeepsToOwn runs world i (fun _ => True) (Py.record tool arguments) :=
  touch fun _ hs => hs.congr rfl rfl rfl

/-- An event is written into the run's own trace. -/
theorem emit (clock : Clock) (fields : EventFields) :
    KeepsToOwn runs world i (fun _ => True) (Py.emit clock fields) := by
  refine touch fun s hs => ?_
  cases haudit : s.audit with
  | none => simpa [Session.emit, haudit] using hs
  | some audit =>
      simp only [Session.emit, haudit]
      exact hs.congr rfl rfl rfl

/-- What a call learns is cut to the part as it stands. -/
theorem callLearns {f : Call → Call}
    (hf : ∀ part call, f (call.trim part) = (f call).trim part) :
    KeepsToOwn runs world i (fun _ => True) (Py.callLearns f) := by
  refine .modify fun v hlegal hminds => ⟨?_, rfl, hlegal, hminds⟩
  have hlearns : (v.own.history.map (Call.trim (runs.own i))).modifyHead f =
      (v.own.history.modifyHead f).map (Call.trim (runs.own i)) := by
    cases v.own.history <;> simp [hf]
  simp only [Estate.view, Runs.estate, Local.trim, hlearns]

/-- The planner names the order of the run. -/
theorem propose (attempt : Nat) :
    KeepsToOwn runs world i
      (fun raw => ∀ proposal, validate (runs.runners i).intFromText raw = .ok proposal →
        proposal.orderId = runs.orderId i) (Py.propose attempt) := by
  refine .atomically fun v hlegal hminds => ?_
  have hscript := v.own.session.planner.proposals_propose
  refine ⟨⟨rfl, rfl, hlegal, hminds.congr hscript rfl rfl⟩, rfl, fun raw hraw => ?_⟩
  cases hraw
  intro proposal hproposal
  rcases v.own.session.planner.propose_mem with hnone | hmem
  · have hnone : validate (runs.runners i).intFromText v.own.session.planner.propose.1 =
        .error .invalidProposal := by
      rw [hnone]
      rfl
    cases hnone.symm.trans hproposal
  · exact hminds.proposals _ hmem proposal hproposal

/-- The changes of the injector are changes of rows of the order. -/
theorem applyPreCommit (action : String) :
    KeepsToOwn runs world i (fun _ => True) (Py.applyPreCommit action) := by
  refine bind (Q := fun changes => ∀ change ∈ changes, ∀ resource,
    Resource.ofString? change.resource = some resource →
      world.Belongs (runs.orderId i) change.resourceId resource) (update fun s hs => ?_)
    fun changes hchanges => ?_
  · cases hi : s.injector with
    | none =>
        simp only [Session.preCommit, hi]
        exact ⟨fun _ hc => absurd hc List.not_mem_nil, hs⟩
    | some injector =>
        obtain ⟨hspec, hmem⟩ := injector.preCommit_spec action
        simp only [Session.preCommit, hi]
        refine ⟨fun change hc => hs.changes change ?_, hs.congr rfl ?_ rfl⟩
        · exact ⟨injector, hi, hmem change hc⟩
        · simp [hi, hspec]
  · induction changes with
    | nil => exact ret trivial
    | cons change changes ih =>
        have hchange := hchanges change (List.mem_cons_self ..)
        refine bind (Q := fun _ => True) (transaction (fun db h => ?_) fun db a db' h happ => ?_)
          fun _ _ => ih fun c hc => hchanges c (List.mem_cons_of_mem _ hc)
        · rw [Runs.own_apply]
          cases change.apply db <;> rfl
        · obtain ⟨db'', happ, heq⟩ := map_eq_ok.mp happ
          cases heq
          exact ⟨Runs.others_apply h happ hchange, h.inject happ, trivial⟩

/-! ## Permits -/

/-- A permit that is issued is found under an id of the run's own. -/
theorem issuePermit (hsep : runs.Separate world) {request : PermitRequest}
    (hkey : request.idempotencyKey = none) :
    KeepsToOwn runs world i (fun permit => runs.PermitId i permit.permitId)
      ((runs.runners i).issuer.issuePermit request) := by
  refine bind (Q := fun _ => True) (update fun s hs => ⟨trivial, hs.congr rfl rfl rfl⟩)
    fun sequence _ => bind (now _) fun issuedAt _ => ?_
  have hid : runs.PermitId i
      ((runs.runners i).issuer.permitAt request sequence issuedAt).permitId := ⟨sequence, rfl⟩
  refine transaction (fun db h => ?_) fun db permit db' h hins => ?_
  · rw [h.own_insertPermit rfl hid]
    cases db.insertPermit _ <;> rfl
  · obtain ⟨db'', hins, heq⟩ := map_eq_ok.mp hins
    cases heq
    refine ⟨Runs.others_insertPermit hins rfl, h.insertPermit hins hid rfl ?_ hsep, hid⟩
    refine ⟨sequence, request.action, request.resourceId, ?_⟩
    simp only [ExecutionPermit.row, PermitIssuer.permitAt, hkey, Option.getD_none, textOr, if_true]
    rfl

/-! ## The executor -/

section Executor

variable {proposal : ActionProposal} {permit : Option ExecutionPermit}

/-- An event of the executor looks up the run's own target. -/
theorem executorEmit (horder : proposal.orderId = runs.orderId i) (eventType : EventType)
    (result : Option ExecutionResult) (extra : List (String × PlainValue)) :
    KeepsToOwn runs world i (fun _ => True)
      ((runs.runners i).executor.emit eventType proposal permit result extra) := by
  refine bind (Q := fun _ => True) (own fun _ _ => trivial) fun audited _ => ?_
  split_ifs
  · refine bind (Q := fun _ => True) (query fun db _ => ?_) fun _ _ => emit _ _
    exact ⟨Runs.own_resolveTarget horder, fun _ _ => trivial⟩
  · exact ret trivial

/-- A commit with the run's own permit writes rows of its own order. -/
theorem commit (hsep : runs.Separate world) (horder : proposal.orderId = runs.orderId i)
    {permit : ExecutionPermit} (hpermit : runs.OwnPermit i permit)
    (hpayment : proposal.action = .issueRefund →
      world.Belongs (runs.orderId i) permit.resourceId .payment) (texts : TicketTexts) :
    KeepsToOwn runs world i (fun _ => True)
      ((runs.runners i).executor.commit permit proposal texts) := by
  refine bind (Q := (· = (runs.runners i).executor.authorization permit))
    (raising fun auth hauth => ?_) fun auth hauth => ?_
  · cases hauth
    rfl
  subst hauth
  refine bind (now _) fun instant _ => bind (record _ _) fun _ _ => tryCatch ?_ fun err => ?_
  · have hown : runs.OwnExecution world i
        ((runs.runners i).executor.execution permit proposal texts instant) :=
      ⟨rfl, hpermit, horder, hpayment⟩
    refine transaction (fun db h => h.own_commitAll hown) fun db result db' h hcommit => ?_
    obtain ⟨-, hcommits⟩ := commitAll_eq_ok.mp hcommit
    exact ⟨Runs.others_commits h hcommits hown, h.commits hcommits hown hsep, trivial⟩
  · cases err with
    | staleResource resourceId version => exact ret trivial
    | _ => exact fail _

/-- What the checks let pass is about the order, and so is what they let be committed. -/
theorem runChecks (hsep : runs.Separate world) (horder : proposal.orderId = runs.orderId i)
    (hpermit : ∀ p, permit = some p → runs.OwnPermit i p) (texts : TicketTexts) :
    KeepsToOwn runs world i (fun _ => True)
      ((runs.runners i).executor.runChecks permit proposal texts) := by
  cases permit with
  | none => exact ret trivial
  | some permit =>
      have hpermit := hpermit permit rfl
      unfold Executor.runChecks
      dsimp only
      split_ifs with haction
      · exact ret trivial
      refine bind (Q := fun target => ∀ t, target = some t → proposal.action = .issueRefund →
        world.Belongs (runs.orderId i) t.resourceId .payment) (query fun db h => ?_)
        fun target htarget => ?_
      · refine ⟨Runs.own_resolveTarget horder, ?_⟩
        rintro target hfound t rfl hrefund
        rw [← horder, ← h.belongs]
        exact Database.belongs_target hfound hrefund
      cases target with
      | none => exact ret trivial
      | some target =>
          dsimp only
          split_ifs with hresource
          · exact ret trivial
          refine bind (now _) fun now _ => ?_
          refine bind (Q := fun _ => True) (raising fun _ _ => trivial) fun expiresAt _ => ?_
          split_ifs with hexpired
          · exact ret trivial
          refine bind (Q := fun _ => True) (query fun db h => ?_) fun stored _ => ?_
          · exact ⟨congrArg Except.ok (h.own_storedResult hpermit.key), fun _ _ => trivial⟩
          refine bind (Q := fun _ => True) (raising fun _ _ => trivial) fun answer _ => ?_
          cases answer with
          | some result => exact ret trivial
          | none =>
              -- the target the checks have seen is what the permit is for
              refine bind (applyPreCommit _) fun _ _ => commit hsep horder hpermit ?_ texts
              rw [← not_not.mp hresource]
              exact htarget target rfl

/-- An answer is given in the part. -/
theorem respond (horder : proposal.orderId = runs.orderId i) (result : ExecutionResult) :
    KeepsToOwn runs world i (fun _ => True)
      ((runs.runners i).executor.respond proposal permit result) := by
  unfold Executor.respond
  split_ifs
  · refine bind (executorEmit horder _ _ _) fun _ _ => ?_
    refine bind (Q := fun _ => True) (update fun s hs => ⟨trivial, ?_⟩) fun lost _ => ?_
    · cases hi : s.injector with
      | none => simpa [Session.shouldTimeoutAfterCommit, hi] using hs
      | some injector =>
          simp only [Session.shouldTimeoutAfterCommit, hi]
          refine hs.congr rfl ?_ rfl
          simp [hi, FailureInjector.spec_shouldTimeoutAfterCommit]
    · split_ifs
      · cases permit <;> exact fail _
      · exact ret trivial
  · exact bind (executorEmit horder _ _ _) fun _ _ => ret trivial
  · exact bind (executorEmit horder _ _ _) fun _ _ => ret trivial

/-- A permit of the run is presented there. -/
theorem execute (hsep : runs.Separate world) (horder : proposal.orderId = runs.orderId i)
    {permitId : String} (hid : runs.PermitId i permitId) (texts : TicketTexts) :
    KeepsToOwn runs world i (fun _ => True)
      ((runs.runners i).executor.execute (some permitId) proposal texts) := by
  refine bind (Q := fun permit => ∀ p, permit = some p → runs.OwnPermit i p)
    (query fun db h => ⟨congrArg Except.ok (h.own_loadPermit hid), ?_⟩) fun permit hpermit => ?_
  · rintro permit heq p rfl
    exact h.ownPermit hid (Except.ok.inj heq)
  · exact bind (executorEmit horder _ _ _) fun _ _ =>
      bind (runChecks hsep horder hpermit texts) fun result _ => respond horder result

end Executor

/-! ## The runner -/

section Runner

/-- So it is a second time. -/
theorem executeWithRetry (hsep : runs.Separate world) {proposal : ActionProposal}
    (horder : proposal.orderId = runs.orderId i) {permitId : String}
    (hid : runs.PermitId i permitId) :
    KeepsToOwn runs world i (fun _ => True)
      ((runs.runners i).executeWithRetry permitId proposal) := by
  refine tryCatch (execute hsep horder hid _) fun err => ?_
  cases err with
  | responseTimeout tool key =>
      refine bind (touch fun s hs => hs.congr rfl rfl rfl) fun _ _ => ?_
      exact execute hsep horder hid _
  | _ => exact fail _

/-- A hand-over of the run's own order stays there. -/
theorem escalate (hsep : runs.Separate world) {orderId : String}
    (horder : orderId = runs.orderId i) (reason : ReasonCode) (detail : String) :
    KeepsToOwn runs world i (fun _ => True)
      ((runs.runners i).escalate orderId reason detail) := by
  refine bind (Q := fun order => ∀ o, order = some o → o.orderId = runs.orderId i)
    (query fun db _ => ⟨Runs.own_fetchOrder horder, ?_⟩) fun order hread => ?_
  · rintro order hfetch o rfl
    exact (Database.fetchOrder_orderId hfetch).trans horder
  cases order with
  | none => exact bind (touch fun s hs => hs.congr rfl rfl rfl) fun _ _ => ret trivial
  | some order =>
      refine bind (Q := fun proposal => proposal.orderId = runs.orderId i)
        (raising fun proposal hproposal => ?_) fun proposal hproposal => ?_
      · exact (Runner.ticketProposal_orderId hproposal).trans (hread order rfl)
      refine bind (issuePermit hsep rfl) fun permit hid => bind (emit _ _) fun _ _ => ?_
      exact bind (execute hsep hproposal hid _) fun result _ => ret trivial

/-- So does an allowed proposal. -/
theorem executeAllowed (hsep : runs.Separate world) {proposal : ActionProposal}
    (horder : proposal.orderId = runs.orderId i) (decision : PolicyResult) (attempt : Nat) :
    KeepsToOwn runs world i (fun _ => True)
      ((runs.runners i).executeAllowed proposal decision attempt) := by
  refine bind (issuePermit hsep rfl) fun permit hid => ?_
  refine bind (callLearns fun _ _ => rfl) fun _ _ => bind (emit _ _) fun _ _ => ?_
  refine bind (touch fun s hs => ⟨hs.proposals, hs.changes, fun permitId presented hlast => ?_⟩)
    fun _ _ => ?_
  · cases hlast
    exact ⟨hid, horder⟩
  refine bind (executeWithRetry hsep horder hid) fun result _ => ?_
  exact bind (callLearns fun _ _ => rfl) fun _ _ => ret trivial

/-- So does whatever the policy decides. -/
theorem proceed (hsep : runs.Separate world) {proposal : ActionProposal}
    (horder : proposal.orderId = runs.orderId i) (snapshot : PolicySnapshot)
    (decision : PolicyResult) (attempt : Nat) :
    KeepsToOwn runs world i (fun _ => True)
      ((runs.runners i).proceed proposal snapshot decision attempt) := by
  unfold Runner.proceed
  split_ifs
  · exact bind (emit _ _) fun _ _ => ret trivial
  · exact bind (emit _ _) fun _ _ => bind (escalate hsep horder _ _) fun _ _ => ret trivial
  · exact bind (emit _ _) fun _ _ => executeAllowed hsep horder _ _

/-- A read that looks into the part finds the same. -/
theorem call (tool : String) (arguments : List (String × PlainValue))
    {fetch : Database → Except PyError α} (hfetch : ∀ db, fetch (runs.own i db) = fetch db)
    (made left : Nat) :
    KeepsToOwn runs world i (fun _ => True) (ReadTools.call tool arguments fetch made left) := by
  induction left generalizing made with
  | zero => exact fail _
  | succ left ih =>
      refine bind (record _ _) fun _ _ => ?_
      refine bind (Q := fun _ => True) (update fun s hs => ⟨trivial, ?_⟩) fun fails _ => ?_
      · cases hi : s.injector with
        | none => simpa [Session.readShouldFail, hi] using hs
        | some injector =>
            simp only [Session.readShouldFail, hi]
            refine hs.congr rfl ?_ rfl
            simp [hi, FailureInjector.readShouldFail]
      · split_ifs
        · exact ih _
        · exact query fun db _ => ⟨hfetch db, fun _ _ => trivial⟩

theorem recovering {read : Py (Option α)} (hread : KeepsToOwn runs world i (fun _ => True) read) :
    KeepsToOwn runs world i (fun _ => True) (ReadTools.recovering read) := by
  refine tryCatch (bind hread fun _ _ => ret trivial) fun err => ?_
  cases err with
  | readUnavailable tool attempts => exact ret trivial
  | _ => exact fail _

theorem optional (needed : Bool) {read : Py (Option α)}
    (hread : KeepsToOwn runs world i (fun _ => True) read) :
    KeepsToOwn runs world i (fun _ => True) (ReadTools.optional needed read) := by
  unfold ReadTools.optional
  split_ifs
  · exact recovering hread
  · exact ret trivial

/-- The records of the run's own order are read there. -/
theorem snapshot {proposal : ActionProposal} (horder : proposal.orderId = runs.orderId i) :
    KeepsToOwn runs world i (fun _ => True) ((runs.runners i).snapshot proposal) := by
  refine bind (recovering (call _ _ (fun db => Runs.own_fetchOrder horder) _ _)) fun order _ => ?_
  refine bind (optional _ (call _ _ (fun db => Runs.own_fetchPaymentForOrder horder) _ _))
    fun payment _ => ?_
  refine bind (optional _ (call _ _ (fun db => Runs.own_fetchShipmentForOrder horder) _ _))
    fun shipment _ => ?_
  refine bind (Q := fun _ => True) ?_ fun refundPolicy _ => bind (now _) fun now _ => ret trivial
  unfold ReadTools.policyOf
  split
  · exact ret trivial
  · exact optional _ (call _ _ (fun db => rfl) _ _)

/-- An attempt comes back with the order of the run. -/
theorem attempt (hsep : runs.Separate world) (number : Nat) {orderId : String}
    (horder : orderId = runs.orderId i) :
    KeepsToOwn runs world i (fun step => step.2 = runs.orderId i)
      ((runs.runners i).attempt number orderId) := by
  refine bind (propose _) fun raw hraw => bind (emit _ _) fun _ _ => ?_
  cases hvalid : validate (runs.runners i).intFromText raw with
  | error reason => exact bind (emit _ _) fun _ _ => ret horder
  | ok proposal =>
      have hproposal := hraw proposal hvalid
      refine bind (emit _ _) fun _ _ => bind (snapshot hproposal) fun snapshot _ => ?_
      refine bind (Q := fun _ => True) (raising fun _ _ => trivial) fun decision _ => ?_
      refine bind (callLearns fun _ _ => rfl) fun _ _ => ?_
      exact bind (proceed hsep hproposal _ _ _) fun step _ => ret hproposal

/-- The first loop stays with its order. -/
theorem plan (hsep : runs.Separate world) (numbers : List Nat) {orderId : String}
    (horder : orderId = runs.orderId i) :
    KeepsToOwn runs world i (fun planned => planned.orderId = runs.orderId i)
      ((runs.runners i).plan numbers orderId) := by
  induction numbers generalizing orderId with
  | nil => exact ret horder
  | cons n rest ih =>
      refine bind (attempt hsep _ horder) fun ⟨step, stepOrderId⟩ hstep => ?_
      have hnext : textOr stepOrderId orderId = runs.orderId i := textOr_same hstep horder
      dsimp only
      split_ifs
      · exact bind (touch fun s hs => hs.congr rfl rfl rfl) fun _ _ => ih hnext
      · exact ret hnext
      · exact ret hnext

/-- So does the hand-over. -/
theorem handOver (hsep : runs.Separate world) {planned : Planned}
    (horder : planned.orderId = runs.orderId i) :
    KeepsToOwn runs world i (fun _ => True) ((runs.runners i).handOver planned) := by
  unfold Runner.handOver
  split
  · exact ret trivial
  · exact bind (escalate hsep horder _ _) fun _ _ => ret trivial

/-- So does the second loop. -/
theorem chain (hsep : runs.Separate world) {planned : Planned}
    (horder : planned.orderId = runs.orderId i) (fuel : Nat) :
    KeepsToOwn runs world i (fun planned => planned.orderId = runs.orderId i)
      ((runs.runners i).chain planned fuel) := by
  induction fuel generalizing planned with
  | zero =>
      refine bind (Q := fun _ => True) (own fun _ _ => trivial) fun exhausted _ => ?_
      split_ifs
      · exact fail _
      · exact ret horder
  | succ fuel ih =>
      refine bind (Q := fun _ => True) (own fun _ _ => trivial) fun exhausted _ => ?_
      split_ifs
      · refine bind (attempt hsep _ horder) fun ⟨followUp, orderId⟩ hstep => ?_
        dsimp only
        split_ifs
        · exact ret hstep
        · exact ih hstep
      · exact ret horder

/-- The permit that is presented again is one of the run's own. -/
theorem replay (hsep : runs.Separate world) :
    KeepsToOwn runs world i (fun _ => True) (runs.runners i).replay := by
  refine bind (Q := fun last => ∀ permitId proposal, last = some (permitId, proposal) →
    runs.PermitId i permitId ∧ proposal.orderId = runs.orderId i)
    (own fun s hs => hs.presented) fun last hlast => ?_
  cases last with
  | none => exact ret trivial
  | some presented =>
      obtain ⟨permitId, proposal⟩ := presented
      obtain ⟨hid, horder⟩ := hlast permitId proposal rfl
      refine bind (execute hsep horder hid _) fun result _ => ?_
      exact touch fun s hs => hs.congr rfl rfl rfl

/-- The state of the run's own order is verified. -/
theorem verify {orderId : String} (horder : orderId = runs.orderId i) :
    KeepsToOwn runs world i (fun _ => True) ((runs.runners i).verify orderId) := by
  refine bind (Q := fun _ => True)
    (query fun db _ => ⟨Runs.own_fetchOrder horder, fun _ _ => trivial⟩) fun order _ => ?_
  refine bind (Q := fun _ => True)
    (query fun db _ => ⟨Runs.own_fetchPaymentForOrder horder, fun _ _ => trivial⟩)
    fun payment _ => ?_
  refine bind (Q := fun _ => True)
    (query fun db _ => ⟨Runs.own_fetchShipmentForOrder horder, fun _ _ => trivial⟩)
    fun shipment _ => ?_
  refine bind (Q := fun _ => True)
    (query fun db _ => ⟨congrArg Except.ok Runs.own_refundTotal, fun _ _ => trivial⟩)
    fun refunded _ => ?_
  exact bind (emit _ _) fun _ _ => ret trivial

/-- The report counts the run's own rows. -/
theorem report (outcome : Outcome) (reasonCode : ReasonCode) (finalState : VerifiedState) :
    KeepsToOwn runs world i (fun _ => True)
      ((runs.runners i).report outcome reasonCode finalState) := by
  refine bind (Q := fun _ => True)
    (query fun db _ => ⟨congrArg Except.ok Runs.own_mutationLogRows, fun _ _ => trivial⟩)
    fun rows _ => ?_
  refine bind (Q := fun _ => True) (query fun db _ => ⟨?_, fun _ _ => trivial⟩) fun refunds _ => ?_
  · exact congrArg₂ (fun count total => Except.ok (count, total)) Runs.own_refundCount
      Runs.own_refundTotal
  refine bind (Q := fun _ => True)
    (query fun db _ => ⟨congrArg Except.ok Runs.own_ticketCount, fun _ _ => trivial⟩)
    fun tickets _ => ?_
  refine bind (Q := fun _ => True) (own fun _ _ => trivial) fun toolCalls _ => ?_
  refine bind (Q := fun _ => True) (own fun _ _ => trivial) fun recovered _ => ?_
  exact bind (Q := fun _ => True) (own fun _ _ => trivial) fun notes _ => ret trivial

/-- The end of a run stays in the part. -/
theorem finish {planned : Planned} (horder : planned.orderId = runs.orderId i) :
    KeepsToOwn runs world i (fun _ => True) ((runs.runners i).finish planned) :=
  bind (verify horder) fun _ _ => bind (report _ _ _) fun _ _ =>
    bind (emit _ _) fun _ _ => ret trivial

/-- **A run keeps to its own**, in every statement it can come to. -/
theorem run (hsep : runs.Separate world) :
    KeepsToOwn runs world i (fun _ => True) (runs.runners i).run := by
  refine bind (emit _ _) fun _ _ => bind (plan hsep _ rfl) fun planned hplanned => ?_
  refine bind (handOver hsep hplanned) fun _ _ => ?_
  refine bind (Q := fun _ => True) (own fun _ _ => trivial) fun left _ => ?_
  refine bind (chain hsep hplanned _) fun planned hplanned => ?_
  dsimp only
  split_ifs
  · exact bind (replay hsep) fun _ _ => finish hplanned
  · exact finish hplanned

end Runner

end KeepsToOwn

/-! ## The runs of a pool -/

/-- Somebody else changes no row that is a run's own, and takes none of the ids the runs
derive. -/
structure Runs.Elsewhere {ι : Type} (runs : Runs ι) (world db db' : Database) : Prop where
  own : ∀ i, runs.own i db' = runs.own i db
  unmixed : runs.Unmixed world db → runs.Unmixed world db'

/-- Run `i` is in the same place in both pools: the same program is left, the session is the
same, and so are the rows of its own. -/
structure Runs.Alike {ι : Type} (runs : Runs ι) (i : ι)
    (c c' : Pool ι PyError Database Local RunReport) : Prop where
  code : (c.threads i).code = (c'.threads i).code
  session : (c.threads i).own.session = (c'.threads i).own.session
  rows : runs.own i c.shared = runs.own i c'.shared

section Pool

variable {ι : Type} {runs : Runs ι} {world : Database}

/-- What belongs to one run is nothing to the others. -/
theorem Runs.Separate.apart (hsep : runs.Separate world) :
    Pool.Apart (runs.estate world) (runs.Unmixed world) where
  legal_iff _ _ := Iff.rfl
  spared hne _ _ heq := Runs.own_of_others hsep hne heq

/-- On a seed all stand in their own parts. -/
theorem Runs.Separate.settled (hsep : runs.Separate world) (hseeded : world.Seeded) :
    Pool.Settled (runs.estate world) (runs.Unmixed world) (runs.pool world) where
  legal := .seeded hseeded
  minds _ := .start hsep
  keeps _ := KeepsToOwn.run hsep

/-- Runs whose ids are of one length derive no key in common. -/
theorem Runs.keys_of_length (hlength : ∀ i j, (runs.runId i).length = (runs.runId j).length)
    (hinj : Function.Injective runs.runId) (i j : ι) (key : String) (hi : runs.Key i key)
    (hj : runs.Key j key) : i = j := by
  obtain ⟨m, a, x, rfl⟩ := hi
  obtain ⟨n, b, y, heq⟩ := hj
  have hl := congrArg String.toList heq
  simp only [idempotencyKeyFor, String.toList_append, List.append_assoc,
    List.append_cancel_left_eq] at hl
  have hids := List.append_inj_left hl (by simpa only [String.length_toList] using hlength i j)
  exact hinj (String.toList_inj.mp hids)

variable [DecidableEq ι]

/-- **Separate runs are isolated.**  Let runs be opened each for an order of its own, on one
seeded database, and let their statements interleave in any way, others changing other rows
meanwhile.  At every moment each run is where it would be had it performed some number of
statements on the database alone.  And where it has ended, it has ended as on a database that
holds nothing but the rows of its own: with the same report or exception, having written the
same rows. -/
theorem separate_runs_isolated (hsep : runs.Separate world) (hseeded : world.Seeded)
    {c : Pool ι PyError Database Local RunReport}
    (hreach : Pool.Reaches (runs.Elsewhere world) (runs.pool world) c) (i : ι) :
    (∃ n, runs.Alike i c ((fun c => c.next i)^[n] (runs.pool world))) ∧
    ∀ r, (c.threads i).answer = some r →
      (runs.runners i).run.run
          ⟨runs.own i world, (runs.runners i).start (runs.proposals i) (runs.failures i)⟩ =
        (r, ⟨runs.own i c.shared, (c.threads i).own.trim (runs.own i)⟩) := by
  have hE : ∀ d d', runs.Elsewhere world d d' →
      Pool.Elsewhere (runs.estate world) (runs.Unmixed world) d d' :=
    fun _ _ h hd => ⟨h.unmixed hd, h.own⟩
  have hc := hsep.settled hseeded
  obtain ⟨-, hsame⟩ := Pool.reachable_isolated hsep.apart hE hc hreach
  refine ⟨?_, fun r hr => Pool.finished_isolated hsep.apart hE hc hreach hr⟩
  obtain ⟨n, hn⟩ := hsame i
  exact ⟨n, hn.code, congrArg (fun v => v.own.session) hn.view,
    congrArg (fun v => v.shared) hn.view⟩

end Pool

/-- Two runs, each for an order of its own; the parcel of the first is picked up on the way. -/
def deskRuns : Runs Bool where
  runners b :=
    { clock := fun _ => defaultClockBase, runId := if b then "run_b" else "run_a"
      scenarioId := "desks", defaultOrderId := if b then "ord_0002" else "ord_0001" }
  proposals b := [.proposal (if b then cancelSecond else cancelFirst)]
  failures b := { preCommitChanges := if b then [] else [(str ActionName.cancelOrder, [pickUp])] }

/-- Two orders, for one desk each. -/
def desks : Database := seedWorld [("ord_0001", .paid), ("ord_0002", .paid)]

/-- The second run is through while the first stands before its commit. -/
def desksHalfway : Pool Bool PyError Database Local RunReport :=
  ((fun c => c.next false)^[25] (deskRuns.pool desks)).finish true

/-- The two desks are apart. -/
theorem deskRuns_separate : deskRuns.Separate desks where
  orders := fun i j => by
    revert i j
    decide
  keys := by
    refine Runs.keys_of_length (by decide) fun i j => ?_
    revert i j
    decide
  proposals := by
    intro b raw hraw proposal hvalid
    obtain rfl := List.mem_singleton.mp hraw
    cases hvalid
    cases b <;> rfl
  changes := by
    intro b entry hentry change hmem resource hresource
    cases b with
    | true => cases hentry
    | false =>
        obtain rfl := List.mem_singleton.mp hentry
        obtain rfl := List.mem_singleton.mp hmem
        obtain rfl : Resource.shipment = resource := Option.some.inj hresource
        rw [Database.belongs_shipment]
        decide

/-- One run has reported, the other is on its way. -/
theorem separate_runs_isolated_desks :
    (∃ n, deskRuns.Alike false desksHalfway
      ((fun c => c.next false)^[n] (deskRuns.pool desks))) ∧
    ∃ r, (desksHalfway.threads true).answer = some r ∧
      (deskRuns.runners true).run.run
          ⟨deskRuns.own true desks, (deskRuns.runners true).start [.proposal cancelSecond] {}⟩ =
        (r, ⟨deskRuns.own true desksHalfway.shared,
          (desksHalfway.threads true).own.trim (deskRuns.own true)⟩) := by
  have hreach : Pool.Reaches (deskRuns.Elsewhere desks) (deskRuns.pool desks) desksHalfway :=
    (Pool.reaches_iterate _ false 25).trans (Pool.reaches_finish _ true)
  have hanswer : (desksHalfway.threads true).answer.isSome = true := by decide +kernel
  obtain ⟨r, hr⟩ := Option.isSome_iff_exists.mp hanswer
  have hfirst := separate_runs_isolated deskRuns_separate (seedWorld_seeded _) hreach false
  have hsecond := separate_runs_isolated deskRuns_separate (seedWorld_seeded _) hreach true
  exact ⟨hfirst.1, r, hr, hsecond.2 r hr⟩

end BoundedRefund
