import RustFactory.Lib.Machine
import RustFactory.Observability.Model

/-!
# Log telemetry and its local store

Events, queries and their checks, and `LocalTelemetry`, which keeps the last events of each tenant
in a queue.  A tenant whose queue is full makes room for itself; otherwise an event is refused once
the store as a whole is full.
-/

namespace RustFactory.Observability

open Lib

def maxBodyBytes : ℕ := 16 * 1024
def maxAttributes : ℕ := 32
def maxAttributeValueBytes : ℕ := 1024
def maxEventBytes : ℕ := 64 * 1024
def maxQueryLimit : ℕ := 256
def maxLocalEventsPerTenant : ℕ := 4096
def maxLocalEventsTotal : ℕ := 4096

/-! ## Events -/

/-- The check of a tenant identifier. -/
def validateTenantId (value : String) : Except ObservabilityError Unit :=
  match utf8 value with
  | first :: rest =>
    if byteLen value ≤ maxIdentifierBytes && isLabelStart first &&
        rest.all (fun byte => isLabelStart byte || byte == 95 || byte == 45) then .ok ()
    else .error .invalidId
  | [] => .error .invalidId

def validateEventName (value : String) : Except ObservabilityError Unit :=
  okOr .invalidEvent (validateLabel value)

def validateEventTarget (value : String) : Except ObservabilityError Unit :=
  okOr .invalidEvent (validateLabel value)

/-- The check of an attribute's name. -/
def validateAttributeKey (value : String) : Except ObservabilityError Unit :=
  okOr .invalidEvent (validateLabel value)

/-- A tenant. -/
structure TenantId where
  asStr : String
  valid : (validateTenantId asStr).isOk
  deriving DecidableEq

/-- The name of an event. -/
structure EventName where
  asStr : String
  valid : (validateEventName asStr).isOk
  deriving DecidableEq

/-- What an event is about. -/
structure EventTarget where
  asStr : String
  valid : (validateEventTarget asStr).isOk
  deriving DecidableEq

theorem TenantId.asStr_injective : Function.Injective TenantId.asStr := by
  rintro ⟨a, ha⟩ ⟨b, hb⟩ h
  cases h
  rfl

instance : LinearOrder TenantId := LinearOrder.lift' TenantId.asStr TenantId.asStr_injective

/-- How severe an event is. -/
inductive Severity where
  | trace
  | debug
  | info
  | warn
  | error
  deriving DecidableEq

/-- Nanoseconds since the epoch. -/
abbrev Timestamp := UInt64

/-- An event. -/
structure TelemetryEventV1 where
  name : EventName
  target : EventTarget
  severity : Severity
  body : String
  attributes : BTreeMap String String

/-- An event with its tenant and its time. -/
structure TelemetryEnvelopeV1 where
  tenantId : TenantId
  timestamp : Timestamp
  event : TelemetryEventV1

/-- An event with the number it was kept under. -/
structure TelemetryRecordV1 where
  sequence : ℕ
  envelope : TelemetryEnvelopeV1

/-- Which records a query is for, and how many. -/
structure TelemetryQueryV1 where
  since : Option Timestamp
  «until» : Option Timestamp
  minimumSeverity : Option Severity
  eventName : Option EventName
  target : Option EventTarget
  limit : ℕ

/-! ## Checks -/

/-- The sum of two sizes, if it fits a machine word. -/
def checkedAddSize (a b : ℕ) : Except ObservabilityError ℕ :=
  if a + b < 2 ^ 64 then .ok (a + b) else .error .limitExceeded

def eventSize (event : TelemetryEventV1) : Except ObservabilityError ℕ := do
  let size ← checkedAddSize (byteLen event.name.asStr) (byteLen event.target.asStr)
  let size ← checkedAddSize size (byteLen event.body)
  event.attributes.toList.foldlM (fun size entry => do
    let size ← checkedAddSize size (byteLen entry.1)
    checkedAddSize size (byteLen entry.2)) size

def validateAttribute (key value : String) : Except ObservabilityError Unit := do
  validateAttributeKey key
  if maxAttributeValueBytes < byteLen value then .error .limitExceeded else .ok ()

def validateEvent (event : TelemetryEventV1) : Except ObservabilityError Unit := do
  validateEventName event.name.asStr
  validateEventTarget event.target.asStr
  if maxBodyBytes < byteLen event.body ∨ maxAttributes < event.attributes.size then
    .error .limitExceeded
  else do
    event.attributes.toList.forM fun entry => validateAttribute entry.1 entry.2
    let size ← eventSize event
    if size ≤ maxEventBytes then .ok () else .error .limitExceeded

/-- The check of an event with its tenant. -/
def validateEnvelope (envelope : TelemetryEnvelopeV1) : Except ObservabilityError Unit := do
  validateTenantId envelope.tenantId.asStr
  validateEvent envelope.event

/-- The check of a record; numbers start at one. -/
def validateRecord (record : TelemetryRecordV1) : Except ObservabilityError Unit :=
  if 0 < record.sequence then validateEnvelope record.envelope else .error .invalidEvent

/-- A window whose end is not after its start. -/
def emptyWindow : Option Timestamp → Option Timestamp → Bool
  | some since, some «until» => «until» ≤ since
  | _, _ => false

/-- The check of a query under a bound on its limit. -/
def validateQuery (query : TelemetryQueryV1) (maximumLimit : ℕ) : Except ObservabilityError Unit :=
  if query.limit = 0 then .error .invalidQuery
  else if maximumLimit < query.limit then .error .limitExceeded
  else if emptyWindow query.since query.until then .error .invalidQuery
  else do
    query.eventName.toList.forM fun name =>
      (validateEventName name.asStr).mapError fun _ => .invalidQuery
    query.target.toList.forM fun target =>
      (validateEventTarget target.asStr).mapError fun _ => .invalidQuery

/-- The severities in the order of their declaration. -/
def Severity.rank : Severity → ℕ
  | .trace => 0
  | .debug => 1
  | .info => 2
  | .warn => 3
  | .error => 4

/-- The record is one that the query is for. -/
def recordMatches (record : TelemetryRecordV1) (query : TelemetryQueryV1) : Bool :=
  query.since.all (fun since => since ≤ record.envelope.timestamp) &&
  query.until.all (fun bound => record.envelope.timestamp < bound) &&
  query.minimumSeverity.all (fun severity => severity.rank ≤ record.envelope.event.severity.rank) &&
  query.eventName.all (fun name => record.envelope.event.name == name) &&
  query.target.all (fun target => record.envelope.event.target == target)

/-! ## The local store -/

/-- The capacity of each queue. -/
structure LocalTelemetry where
  capacityPerTenant : ℕ
  valid : 0 < capacityPerTenant ∧ capacityPerTenant ≤ maxLocalEventsPerTenant

def LocalTelemetry.new (capacityPerTenant : ℕ) : Except ObservabilityError LocalTelemetry :=
  if h : capacityPerTenant = 0 ∨ maxLocalEventsPerTenant < capacityPerTenant then
    .error .limitExceeded
  else
    .ok ⟨capacityPerTenant, by omega⟩

namespace LocalTelemetry

/-- The queues, oldest event first. -/
structure State where
  nextSequence : ℕ
  totalEvents : ℕ
  tenants : BTreeMap TenantId (List TelemetryRecordV1)

def State.initial : State := ⟨1, 0, ∅⟩

/-- Keeps an event, and drops the oldest ones where there is no room. -/
def emit (telemetry : LocalTelemetry) (state : State) (envelope : TelemetryEnvelopeV1) :
    Except ObservabilityError Unit × State :=
  match validateEnvelope envelope with
  | .error error => (.error error, state)
  | .ok _ =>
    let tenantIsFull := state.tenants[envelope.tenantId]?.any
      fun records => records.length == telemetry.capacityPerTenant
    if !tenantIsFull && state.totalEvents == maxLocalEventsTotal then
      (.error .limitExceeded, state)
    else if 2 ^ 64 ≤ state.nextSequence + 1 then
      (.error .limitExceeded, state)
    else
      let records := state.tenants.getD envelope.tenantId []
      let records := if tenantIsFull then records.tail else records
      (.ok (),
        { nextSequence := state.nextSequence + 1
          totalEvents := if tenantIsFull then state.totalEvents else state.totalEvents + 1
          tenants := state.tenants.insert envelope.tenantId
            (records ++ [⟨state.nextSequence, envelope⟩]) })

/-- The newest records of a tenant that the query is for. -/
def query (state : State) (tenantId : TenantId) (query : TelemetryQueryV1) :
    Except ObservabilityError (List TelemetryRecordV1) := do
  validateQuery query maxQueryLimit
  .ok (((state.tenants.getD tenantId []).reverse.filter fun record =>
    (validateRecord record).isOk && record.envelope.tenantId == tenantId &&
      recordMatches record query).take query.limit)

/-- The store as a machine that is fed events. -/
def machine (telemetry : LocalTelemetry) :
    Machine State TelemetryEnvelopeV1 (Except ObservabilityError Unit) :=
  ⟨telemetry.emit⟩

end LocalTelemetry

end RustFactory.Observability
