import RustFactory.Observability.Telemetry

/-!
# The telemetry service

The service stamps an event with the time of its clock and checks it before the sink sees it.  It
checks a query against its own limit, and the records that the reader answers once more.  Over the
local store these checks are made twice, and only the limit of queries is its own.
-/

namespace RustFactory.Observability

open Lib

def TelemetryEventV1.new (name : EventName) (target : EventTarget) (severity : Severity)
    (body : String) (attributes : BTreeMap String String) :
    Except ObservabilityError TelemetryEventV1 := do
  let event : TelemetryEventV1 := ⟨name, target, severity, body, attributes⟩
  validateEvent event
  .ok event

/-- A query for any events, up to a limit. -/
def TelemetryQueryV1.new (limit : ℕ) : Except ObservabilityError TelemetryQueryV1 := do
  let query : TelemetryQueryV1 := ⟨none, none, none, none, none, limit⟩
  validateQuery query maxQueryLimit
  .ok query

/-- A service whose sink and reader are one local store. -/
structure TelemetryService where
  sink : LocalTelemetry
  maxQueryLimit : ℕ
  valid : 0 < maxQueryLimit ∧ maxQueryLimit ≤ Observability.maxQueryLimit

/-- A service with a checked bound on queries. -/
def TelemetryService.new (sink : LocalTelemetry) (maxQueryLimit : ℕ) :
    Except ObservabilityError TelemetryService :=
  if h : maxQueryLimit = 0 ∨ Observability.maxQueryLimit < maxQueryLimit then
    .error .limitExceeded
  else
    .ok ⟨sink, maxQueryLimit, by omega⟩

namespace TelemetryService

variable (service : TelemetryService) (state : LocalTelemetry.State) (tenantId : TenantId)

/-- `emit`, given what the clock answers. -/
def emit (now : Except ObservabilityError Timestamp) (event : TelemetryEventV1) :
    Except ObservabilityError Unit × LocalTelemetry.State :=
  match now with
  | .error error => (.error error, state)
  | .ok timestamp =>
    let envelope : TelemetryEnvelopeV1 := ⟨tenantId, timestamp, event⟩
    match validateEnvelope envelope with
    | .error error => (.error error, state)
    | .ok _ => service.sink.emit state envelope

/-- The records that the query is for, checked once more. -/
def query (query : TelemetryQueryV1) : Except ObservabilityError (List TelemetryRecordV1) := do
  validateQuery query service.maxQueryLimit
  let records ← LocalTelemetry.query state tenantId query
  .ok ((records.filter fun record => (validateRecord record).isOk &&
    record.envelope.tenantId == tenantId && recordMatches record query).take query.limit)

theorem emit_eq (timestamp : Timestamp) (event : TelemetryEventV1) :
    service.emit state tenantId (.ok timestamp) event =
      service.sink.emit state ⟨tenantId, timestamp, event⟩ := by
  unfold emit
  cases hvalid : validateEnvelope ⟨tenantId, timestamp, event⟩ with
  | error error =>
    unfold LocalTelemetry.emit
    simp only [hvalid]
  | ok _ => simp only [hvalid]

theorem validateQuery_mono {query : TelemetryQueryV1} {m n : ℕ} (hle : m ≤ n)
    (h : validateQuery query m = .ok ()) : validateQuery query n = .ok () := by
  unfold validateQuery at h ⊢
  by_cases hzero : query.limit = 0
  · rw [if_pos hzero] at h
    cases h
  · rw [if_neg hzero] at h ⊢
    by_cases hlimit : m < query.limit
    · rw [if_pos hlimit] at h
      cases h
    · rw [if_neg hlimit] at h
      rwa [if_neg (by omega)]

theorem query_eq (query : TelemetryQueryV1) : service.query state tenantId query =
    (validateQuery query service.maxQueryLimit).bind fun _ =>
      LocalTelemetry.query state tenantId query := by
  unfold TelemetryService.query
  cases hvalid : validateQuery query service.maxQueryLimit with
  | error error => rfl
  | ok _ =>
    have hreader := validateQuery_mono service.valid.2 hvalid
    unfold LocalTelemetry.query
    simp only [hreader, ok_bind, Except.bind, Except.ok.injEq]
    rw [List.filter_eq_self.mpr fun record hrecord =>
      (List.mem_filter.mp (List.mem_of_mem_take hrecord)).2, List.take_take, min_self]

end TelemetryService

end RustFactory.Observability
