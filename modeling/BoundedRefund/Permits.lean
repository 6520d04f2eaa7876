import BoundedRefund.Session

/-!
# Permits

Permit ids and idempotency keys are derived from the run id and a per-run sequence
number.  The texts matter: two permits are told apart by their ids, and a stored
result is found under its key.
-/

namespace BoundedRefund

open Relational

/-- The format specification `03d`. -/
def pad3 (n : Nat) : String :=
  String.ofList ((Nat.toDigits 10 n).leftpad 3 '0')

/-- The id of the permit with this number. -/
def permitIdFor (runId : String) (sequence : Nat) : String :=
  "prm_" ++ runId ++ "_" ++ pad3 sequence

/-- The key of the permit with this number: the parts are joined, not quoted. -/
def idempotencyKeyFor (runId : String) (sequence : Nat) (action : ActionName)
    (resourceId : String) : String :=
  "idk_" ++ runId ++ "_" ++ pad3 sequence ++ "_" ++ str action ++ "_" ++ resourceId

/-- `PermitIssuer`: it belongs to one run, and its permits live for `ttlSeconds`. -/
structure PermitIssuer where
  clock : Clock
  runId : String
  ttlSeconds : Int := permitTtlSeconds

/-- What a caller asks a permit for. -/
structure PermitRequest where
  action : ActionName
  resourceId : String
  expectedResourceVersion : Int
  maxAmountCents : Int := 0
  ttlSeconds : Option Int := none
  idempotencyKey : Option String := none

namespace PermitIssuer

/-- The permit with the given sequence number. -/
def permitAt (issuer : PermitIssuer) (request : PermitRequest) (sequence : Nat)
    (issuedAt : Instant) : ExecutionPermit where
  permitId := permitIdFor issuer.runId sequence
  action := request.action
  resourceId := request.resourceId
  expectedResourceVersion := request.expectedResourceVersion
  maxAmountCents := request.maxAmountCents
  expiresAt := toIso (issuedAt + seconds (request.ttlSeconds.getD issuer.ttlSeconds))
  -- an empty key is no key
  idempotencyKey := textOr (request.idempotencyKey.getD "")
    (idempotencyKeyFor issuer.runId sequence request.action request.resourceId)
  used := false

end PermitIssuer

/-- The row a permit is stored in. -/
def ExecutionPermit.row (permit : ExecutionPermit) (createdAt : Instant) (runId : String) :
    PermitRow where
  permitId := permit.permitId
  action := permit.action
  resourceId := permit.resourceId
  expectedResourceVersion := permit.expectedResourceVersion
  maxAmountCents := permit.maxAmountCents
  expiresAt := permit.expiresAt
  idempotencyKey := permit.idempotencyKey
  used := false
  createdAt := toIso createdAt
  runId := runId

/-- The permit a row holds. -/
def PermitRow.permit (row : PermitRow) : ExecutionPermit where
  permitId := row.permitId
  action := row.action
  resourceId := row.resourceId
  expectedResourceVersion := row.expectedResourceVersion
  maxAmountCents := row.maxAmountCents
  expiresAt := row.expiresAt
  idempotencyKey := row.idempotencyKey
  used := row.used

@[simp] theorem PermitRow.permit_action (row : PermitRow) :
    row.permit.action = row.action := rfl

@[simp] theorem PermitRow.permit_resourceId (row : PermitRow) :
    row.permit.resourceId = row.resourceId := rfl

@[simp] theorem PermitRow.permit_idempotencyKey (row : PermitRow) :
    row.permit.idempotencyKey = row.idempotencyKey := rfl

/-- What is issued is what a look-up finds. -/
@[simp] theorem permit_row_permitAt (issuer : PermitIssuer) (request : PermitRequest) (n : Nat)
    (issuedAt : Instant) (runId : String) :
    ((issuer.permitAt request n issuedAt).row issuedAt runId).permit =
      issuer.permitAt request n issuedAt := rfl

/-- The sequence number is taken before anything can fail, so a number is never
used twice. -/
def PermitIssuer.issuePermit (issuer : PermitIssuer) (request : PermitRequest) :
    Py ExecutionPermit := do
  -- a number that is taken stays taken, whatever is raised below
  let sequence ← Py.update fun s => (s.sequence + 1, { s with sequence := s.sequence + 1 })
  let issuedAt ← Py.now issuer.clock
  let permit := issuer.permitAt request sequence issuedAt
  Py.transaction fun db =>
    (db.insertPermit (permit.row issuedAt issuer.runId)).map fun db => (permit, db)

/-- `None` and the empty text name no permit. -/
def Database.loadPermit (db : Database) (permitId : Option String) : Option ExecutionPermit :=
  match permitId with
  | none => none
  | some permitId =>
      if permitId = "" then none
      else (db.executionPermits.find? permitId).map PermitRow.permit

/-- A permit that is loaded has its row. -/
theorem Database.loadPermit_eq_some {db : Database} {permitId : Option String}
    {permit : ExecutionPermit} (h : db.loadPermit permitId = some permit) :
    permitId = some permit.permitId ∧ permit.permitId ≠ "" ∧
      ∃ row, db.executionPermits.find? permit.permitId = some row ∧ row.permit = permit := by
  cases permitId with
  | none => simp [loadPermit] at h
  | some permitId =>
      by_cases he : permitId = ""
      · simp [loadPermit, he] at h
      · simp only [loadPermit, he, if_false, Option.map_eq_some_iff] at h
        obtain ⟨row, hrow, rfl⟩ := h
        obtain rfl : row.permitId = permitId := (Table.find?_eq_some.mp hrow).2
        exact ⟨rfl, he, row, hrow, rfl⟩

/-- A row under an id that is not empty is a permit. -/
theorem Database.loadPermit_of_find? {db : Database} {permitId : String} {row : PermitRow}
    (hne : permitId ≠ "") (h : db.executionPermits.find? permitId = some row) :
    db.loadPermit (some permitId) = some row.permit := by
  simp only [loadPermit, hne, if_false, h, Option.map_some]

/-! ## The derived texts tell permits apart -/

/-- Numbers are told apart by their digits. -/
theorem pad3_injective : Function.Injective pad3 := by
  intro m n h
  have hm : ∀ k, Nat.ofDigitChars 10 ((Nat.toDigits 10 k).leftpad 3 '0') 0 = k := by
    intro k
    simp [List.leftpad, Nat.ofDigitChars_append]
  have hl : (Nat.toDigits 10 m).leftpad 3 '0' = (Nat.toDigits 10 n).leftpad 3 '0' := by
    simpa [pad3] using congrArg String.toList h
  rw [← hm m, ← hm n, hl]

/-- There is no underscore in a number. -/
theorem underscore_notMem_pad3 (n : Nat) : '_' ∉ (pad3 n).toList := by
  simp [pad3, List.leftpad, Nat.underscore_not_in_toDigits]

/-- A permit id is never empty. -/
theorem permitIdFor_ne_empty (runId : String) (n : Nat) : permitIdFor runId n ≠ "" := by
  intro h
  have hl := congrArg String.toList h
  simp [permitIdFor] at hl

/-- Permits of a run are told apart by their numbers. -/
theorem permitIdFor_injective (runId : String) : Function.Injective (permitIdFor runId) := by
  intro m n h
  apply pad3_injective
  simpa [permitIdFor] using h

/-- The sequence number can be read off a derived key. -/
theorem idempotencyKeyFor_sequence {runId : String} {m n : Nat} {a b : ActionName}
    {r q : String} (h : idempotencyKeyFor runId m a r = idempotencyKeyFor runId n b q) :
    m = n := by
  have hl := congrArg String.toList h
  simp only [idempotencyKeyFor, String.toList_append, List.append_assoc,
    List.append_cancel_left_eq] at hl
  apply pad3_injective
  -- the digits end at the first underscore
  have digits : ∀ (k : Nat) (tail : List Char),
      ((pad3 k).toList ++ ("_".toList ++ tail)).takeWhile (· ≠ '_') = (pad3 k).toList := by
    intro k tail
    rw [List.takeWhile_append_of_pos]
    · simp
    · intro c hc
      simpa using fun hcu : c = '_' => underscore_notMem_pad3 k (hcu ▸ hc)
  have := congrArg (List.takeWhile (· ≠ '_')) hl
  rw [digits, digits] at this
  exact String.toList_inj.mp this

end BoundedRefund
