import RustFactory.Observability.Telemetry

/-!
# What the local telemetry store keeps

Over every run of events from any tenants, a tenant's queue is the end of the list of events that
were accepted from it, as much of it as its capacity holds.  The counter of all events is the sum of
the queues, and a sequence number is given once.
-/

namespace RustFactory.Observability

open Lib

namespace LocalTelemetry

variable {telemetry : LocalTelemetry} {state : State} {envelope : TelemetryEnvelopeV1}

/-! ## The end of a list -/

/-- The last `n` members. -/
def lastOf {α : Type} (n : ℕ) (l : List α) : List α := l.drop (l.length - n)

theorem length_lastOf {α : Type} (n : ℕ) (l : List α) : (lastOf n l).length = min n l.length := by
  unfold lastOf
  rw [List.length_drop]
  omega

theorem lastOf_suffix {α : Type} (n : ℕ) (l : List α) : lastOf n l <:+ l := List.drop_suffix _ _

theorem lastOf_concat {α : Type} {n : ℕ} (hn : 0 < n) (l : List α) (a : α) :
    lastOf n (l ++ [a]) =
      (if (lastOf n l).length = n then (lastOf n l).tail else lastOf n l) ++ [a] := by
  rw [length_lastOf]
  unfold lastOf
  rw [List.length_append, List.length_singleton]
  by_cases hfull : n ≤ l.length
  · rw [if_pos (by omega), List.tail_drop, List.drop_append_of_le_length (by omega)]
    congr 2
    omega
  · rw [if_neg (by omega), List.drop_append_of_le_length (by omega)]
    congr 2
    omega

/-! ## One event -/

/-- The queue of a tenant, empty if there is none. -/
def queueOf (state : State) (tenantId : TenantId) : List TelemetryRecordV1 :=
  state.tenants.getD tenantId []

/-- The queue of the tenant has no room left. -/
abbrev isFull (telemetry : LocalTelemetry) (state : State) (tenantId : TenantId) : Prop :=
  (queueOf state tenantId).length = telemetry.capacityPerTenant

theorem tenantIsFull_iff (telemetry : LocalTelemetry) (state : State) (tenantId : TenantId) :
    (state.tenants[tenantId]?.any fun records => records.length == telemetry.capacityPerTenant) ↔
      isFull telemetry state tenantId := by
  unfold isFull queueOf
  rw [Std.ExtTreeMap.getD_eq_getD_getElem?]
  cases state.tenants[tenantId]? with
  | none =>
    have hpos := telemetry.valid.1
    rw [Option.any_none, Option.getD_none, List.length_nil]
    exact iff_of_false Bool.false_ne_true (by omega)
  | some records => rw [Option.any_some, Option.getD_some, beq_iff_eq]

/-- The queue with one event more, the oldest one given up if there is no room. -/
def pushed (telemetry : LocalTelemetry) (records : List TelemetryRecordV1)
    (record : TelemetryRecordV1) : List TelemetryRecordV1 :=
  (if records.length = telemetry.capacityPerTenant then records.tail else records) ++ [record]

/-- Everything an event can do. -/
theorem emit_cases (telemetry : LocalTelemetry) (state : State) (envelope : TelemetryEnvelopeV1) :
    (¬(telemetry.emit state envelope).1.isOk ∧ (telemetry.emit state envelope).2 = state) ∨
    (validateEnvelope envelope = .ok () ∧
      (isFull telemetry state envelope.tenantId ∨ state.totalEvents ≠ maxLocalEventsTotal) ∧
      (telemetry.emit state envelope).1.isOk ∧
      (telemetry.emit state envelope).2.nextSequence = state.nextSequence + 1 ∧
      (isFull telemetry state envelope.tenantId →
        (telemetry.emit state envelope).2.totalEvents = state.totalEvents) ∧
      (¬isFull telemetry state envelope.tenantId →
        (telemetry.emit state envelope).2.totalEvents = state.totalEvents + 1) ∧
      (telemetry.emit state envelope).2.tenants = state.tenants.insert envelope.tenantId
        (pushed telemetry (queueOf state envelope.tenantId) ⟨state.nextSequence, envelope⟩)) := by
  have hiff := tenantIsFull_iff telemetry state envelope.tenantId
  unfold emit
  cases hvalid : validateEnvelope envelope with
  | error error => exact Or.inl ⟨nofun, rfl⟩
  | ok _ =>
    simp only
    by_cases hroom : !(state.tenants[envelope.tenantId]?.any fun records =>
        records.length == telemetry.capacityPerTenant) && state.totalEvents == maxLocalEventsTotal
    · rw [if_pos hroom]
      exact Or.inl ⟨nofun, rfl⟩
    · rw [if_neg hroom]
      by_cases hlast : 2 ^ 64 ≤ state.nextSequence + 1
      · rw [if_pos hlast]
        exact Or.inl ⟨nofun, rfl⟩
      · rw [if_neg hlast]
        by_cases hfull : isFull telemetry state envelope.tenantId
        · rw [hiff.mpr hfull]
          refine Or.inr ⟨trivial, Or.inl hfull, rfl, rfl, fun _ => rfl,
            fun hnot => absurd hfull hnot, ?_⟩
          unfold pushed
          rw [if_pos (show (queueOf state envelope.tenantId).length = _ from hfull)]
          rfl
        · rw [Bool.eq_false_iff.mpr (mt hiff.mp hfull)] at hroom ⊢
          refine Or.inr ⟨trivial, Or.inr ?_, rfl, rfl, fun h => absurd h hfull, fun _ => rfl, ?_⟩
          · simpa using hroom
          · unfold pushed
            rw [if_neg (show ¬(queueOf state envelope.tenantId).length = _ from hfull)]
            rfl

theorem length_pushed (telemetry : LocalTelemetry) (records : List TelemetryRecordV1)
    (record : TelemetryRecordV1) : (pushed telemetry records record).length =
      if records.length = telemetry.capacityPerTenant then records.length
      else records.length + 1 := by
  have hpos := telemetry.valid.1
  unfold pushed
  rw [List.length_append, List.length_singleton]
  by_cases hfull : records.length = telemetry.capacityPerTenant
  · rw [if_pos hfull, if_pos hfull, List.length_tail]
    omega
  · rw [if_neg hfull, if_neg hfull]

theorem mem_pushed {records : List TelemetryRecordV1} {record r : TelemetryRecordV1}
    (h : r ∈ pushed telemetry records record) : r ∈ records ∨ r = record := by
  unfold pushed at h
  rcases List.mem_append.mp h with hold | hnew
  · split_ifs at hold
    · exact Or.inl (List.mem_of_mem_tail hold)
    · exact Or.inl hold
  · exact Or.inr (List.mem_singleton.mp hnew)

theorem queueOf_of_insert {next : State} {records : List TelemetryRecordV1}
    (h : next.tenants = state.tenants.insert envelope.tenantId records) (tenantId : TenantId) :
    queueOf next tenantId =
      if envelope.tenantId = tenantId then records else queueOf state tenantId := by
  unfold queueOf
  rw [h, Std.ExtTreeMap.getD_eq_getD_getElem?, Std.ExtTreeMap.getD_eq_getD_getElem?]
  by_cases hid : envelope.tenantId = tenantId
  · rw [if_pos hid, hid, Std.ExtTreeMap.getElem?_insert_self, Option.getD_some]
  · rw [if_neg hid, BTreeMap.getElem?_insert_of_ne hid]

/-! ## Runs -/

/-- What holds after the events `accepted`. -/
structure Inv (telemetry : LocalTelemetry) (accepted : List TelemetryEnvelopeV1) (state : State) :
    Prop where
  total : state.totalEvents = BTreeMap.sumOver (fun _ records => records.length) state.tenants
  total_le : state.totalEvents ≤ maxLocalEventsTotal
  retained : ∀ tenantId, (queueOf state tenantId).map TelemetryRecordV1.envelope =
    lastOf telemetry.capacityPerTenant (accepted.filter fun e => e.tenantId == tenantId)
  ascending : ∀ tenantId,
    (queueOf state tenantId).Pairwise fun a b => a.sequence < b.sequence
  issued : ∀ tenantId, ∀ record ∈ queueOf state tenantId,
    record.sequence < state.nextSequence ∧ validateRecord record = .ok ()
  unique : ∀ tenantId tenantId', ∀ record ∈ queueOf state tenantId,
    ∀ record' ∈ queueOf state tenantId', record.sequence = record'.sequence →
      tenantId = tenantId' ∧ record = record'
  positive : 0 < state.nextSequence

theorem queueOf_initial (tenantId : TenantId) : queueOf State.initial tenantId = [] :=
  Std.ExtTreeMap.getD_empty

theorem Inv.initial : Inv telemetry [] State.initial where
  total := rfl
  total_le := Nat.zero_le _
  retained tenantId := by
    rw [queueOf_initial]
    exact List.drop_nil.symm
  ascending tenantId := by
    rw [queueOf_initial]
    exact List.Pairwise.nil
  issued tenantId := by
    rw [queueOf_initial]
    nofun
  unique tenantId tenantId' := by
    rw [queueOf_initial]
    nofun
  positive := Nat.one_pos

theorem sumOver_pushed (telemetry : LocalTelemetry) (state : State) (tenantId : TenantId)
    (record : TelemetryRecordV1) :
    BTreeMap.sumOver (fun _ records => records.length) (state.tenants.insert tenantId
        (pushed telemetry (queueOf state tenantId) record)) =
      BTreeMap.sumOver (fun _ records => records.length) state.tenants +
        if (queueOf state tenantId).length = telemetry.capacityPerTenant then 0 else 1 := by
  have hsum := BTreeMap.sumOver_insert_add (fun _ records => records.length) state.tenants tenantId
    (pushed telemetry (queueOf state tenantId) record)
  have hold : (state.tenants[tenantId]?.elim 0 fun records => records.length) =
      (queueOf state tenantId).length := by
    unfold queueOf
    rw [Std.ExtTreeMap.getD_eq_getD_getElem?]
    cases state.tenants[tenantId]? with
    | none => rfl
    | some records => rfl
  rw [length_pushed, hold] at hsum
  split_ifs at hsum ⊢
  · omega
  · omega

/-- An accepted event keeps the invariant. -/
theorem Inv.emit {accepted : List TelemetryEnvelopeV1} (h : Inv telemetry accepted state)
    (hok : (telemetry.emit state envelope).1.isOk) :
    Inv telemetry (accepted ++ [envelope]) (telemetry.emit state envelope).2 := by
  obtain ⟨hrefused, -⟩ | ⟨hvalid, hroom, -, hnext, hfulltotal, htotal, htenants⟩ :=
    emit_cases telemetry state envelope
  · exact absurd hok hrefused
  have hqueue := queueOf_of_insert htenants
  -- A member of a queue was there before or is the new event.
  have hmem : ∀ tenantId, ∀ record ∈ queueOf (telemetry.emit state envelope).2 tenantId,
      record ∈ queueOf state tenantId ∨
        envelope.tenantId = tenantId ∧ record = ⟨state.nextSequence, envelope⟩ := by
    intro tenantId record hrecord
    rw [hqueue] at hrecord
    split_ifs at hrecord with hid
    · subst hid
      rcases mem_pushed hrecord with hold | hnew
      · exact Or.inl hold
      · exact Or.inr ⟨rfl, hnew⟩
    · exact Or.inl hrecord
  refine ⟨?_, ?_, fun tenantId => ?_, fun tenantId => ?_, fun tenantId record hrecord => ?_, ?_, ?_⟩
  · rw [htenants, sumOver_pushed, ← h.total]
    by_cases hfull : isFull telemetry state envelope.tenantId
    · rw [hfulltotal hfull, if_pos hfull]
      rfl
    · rw [htotal hfull, if_neg hfull]
  · by_cases hfull : isFull telemetry state envelope.tenantId
    · rw [hfulltotal hfull]
      exact h.total_le
    · rw [htotal hfull]
      have hbelow : state.totalEvents ≠ maxLocalEventsTotal := hroom.resolve_left hfull
      have hle := h.total_le
      omega
  · rw [hqueue, List.filter_append]
    by_cases hid : envelope.tenantId = tenantId
    · subst hid
      have hold := h.retained envelope.tenantId
      have hlength : (queueOf state envelope.tenantId).length = (lastOf telemetry.capacityPerTenant
          (accepted.filter fun e => e.tenantId == envelope.tenantId)).length := by
        rw [← hold, List.length_map]
      have hnew : [envelope].filter (fun e => e.tenantId == envelope.tenantId) = [envelope] :=
        List.filter_eq_self.mpr fun e he => by rw [List.mem_singleton.mp he, beq_self_eq_true]
      rw [if_pos rfl, hnew, lastOf_concat telemetry.valid.1, ← hlength, ← hold]
      unfold pushed
      rw [List.map_append, apply_ite (List.map TelemetryRecordV1.envelope), List.map_tail]
      rfl
    · have hnone : [envelope].filter (fun e => e.tenantId == tenantId) = [] :=
        List.filter_eq_nil_iff.mpr fun e he => by rwa [List.mem_singleton.mp he, beq_iff_eq]
      rw [if_neg hid, hnone, List.append_nil]
      exact h.retained tenantId
  · rw [hqueue]
    by_cases hid : envelope.tenantId = tenantId
    · subst hid
      rw [if_pos rfl]
      unfold pushed
      refine List.pairwise_append.mpr ⟨?_, List.pairwise_singleton _ _, ?_⟩
      · split_ifs
        · exact (h.ascending _).sublist (List.tail_sublist _)
        · exact h.ascending _
      · intro a ha b hb
        rw [List.mem_singleton.mp hb]
        have hold : a ∈ queueOf state envelope.tenantId := by
          split_ifs at ha
          · exact List.mem_of_mem_tail ha
          · exact ha
        exact (h.issued _ a hold).1
    · rw [if_neg hid]
      exact h.ascending tenantId
  · rw [hnext]
    rcases hmem tenantId record hrecord with hold | ⟨-, rfl⟩
    · exact ⟨Nat.lt_succ_of_lt (h.issued _ record hold).1, (h.issued _ record hold).2⟩
    · refine ⟨Nat.lt_succ_self _, ?_⟩
      unfold validateRecord
      rw [if_pos h.positive]
      exact hvalid
  · intro tenantId tenantId' record hrecord record' hrecord' hsame
    rcases hmem tenantId record hrecord with hold | ⟨hid, rfl⟩
    · rcases hmem tenantId' record' hrecord' with hold' | ⟨-, rfl⟩
      · exact h.unique _ _ record hold record' hold' hsame
      · exact absurd hsame (h.issued _ record hold).1.ne
    · rcases hmem tenantId' record' hrecord' with hold' | ⟨hid', rfl⟩
      · exact absurd hsame.symm (h.issued _ record' hold').1.ne
      · exact ⟨hid.symm.trans hid', rfl⟩
  · rw [hnext]
    exact Nat.succ_pos _

theorem emit_refused (h : ¬(telemetry.emit state envelope).1.isOk) :
    (telemetry.emit state envelope).2 = state := by
  obtain ⟨-, hsame⟩ | ⟨-, -, hok, -⟩ := emit_cases telemetry state envelope
  · exact hsame
  · exact absurd hok h

theorem inv_run (telemetry : LocalTelemetry) (run : List TelemetryEnvelopeV1) :
    Inv telemetry (telemetry.machine.accepted Except.isOk .initial run)
      (telemetry.machine.final .initial run) := by
  refine Machine.invariant_accepted (P := Inv telemetry) ?_ ?_ Inv.initial run
  · intro accepted state envelope h hok
    exact h.emit hok
  · intro accepted state envelope h hrefused
    have hsame : (telemetry.machine.step state envelope).2 = state := emit_refused hrefused
    rw [hsame]
    exact h

theorem Inv.tenantId_eq {accepted : List TelemetryEnvelopeV1} (h : Inv telemetry accepted state)
    {tenantId : TenantId} {record : TelemetryRecordV1} (hrecord : record ∈ queueOf state tenantId) :
    record.envelope.tenantId = tenantId := by
  have henvelope : record.envelope ∈ (queueOf state tenantId).map TelemetryRecordV1.envelope :=
    List.mem_map_of_mem hrecord
  rw [h.retained] at henvelope
  have haccepted := (lastOf_suffix _ _).subset henvelope
  exact beq_iff_eq.mp (List.mem_filter.mp haccepted).2

/-- The two checks a query makes of each record never fail. -/
theorem Inv.query_eq {accepted : List TelemetryEnvelopeV1} (h : Inv telemetry accepted state)
    (tenantId : TenantId) (filter : TelemetryQueryV1) :
    query state tenantId filter = (validateQuery filter maxQueryLimit).map fun _ =>
      ((queueOf state tenantId).reverse.filter fun record => recordMatches record filter).take
        filter.limit := by
  have hfilter : ((queueOf state tenantId).reverse.filter fun record =>
      (validateRecord record).isOk && record.envelope.tenantId == tenantId &&
        recordMatches record filter) =
      (queueOf state tenantId).reverse.filter fun record => recordMatches record filter := by
    refine List.filter_congr fun record hrecord => ?_
    have hmem : record ∈ queueOf state tenantId := List.mem_reverse.mp hrecord
    rw [(h.issued tenantId record hmem).2, h.tenantId_eq hmem, beq_self_eq_true, Bool.and_true]
    exact Bool.true_and _
  unfold query
  change (validateQuery filter maxQueryLimit >>= fun _ => Except.ok
    (((queueOf state tenantId).reverse.filter _).take filter.limit)) = _
  rw [hfilter]
  cases validateQuery filter maxQueryLimit with
  | error error => rfl
  | ok _ => rfl

/-- Over every run of events: the counter is the sum of the queues and stays within the bound; each
queue holds the last events accepted from its tenant, as many as its capacity admits; sequence
numbers are given once and ascend along a queue; a refused event changes nothing; and a query returns
the matching events of its tenant, newest first. -/
theorem run_retains (telemetry : LocalTelemetry) (run : List TelemetryEnvelopeV1) :
    let state := telemetry.machine.final .initial run
    let accepted := telemetry.machine.accepted Except.isOk .initial run
    state.totalEvents = BTreeMap.sumOver (fun _ records => records.length) state.tenants ∧
    state.totalEvents ≤ maxLocalEventsTotal ∧
    (∀ tenantId, (queueOf state tenantId).map TelemetryRecordV1.envelope <:+
        accepted.filter (fun e => e.tenantId == tenantId) ∧
      (queueOf state tenantId).length = min telemetry.capacityPerTenant
        (accepted.filter fun e => e.tenantId == tenantId).length) ∧
    (∀ tenantId, (queueOf state tenantId).Pairwise fun a b => a.sequence < b.sequence) ∧
    (∀ tenantId tenantId', ∀ record ∈ queueOf state tenantId,
      ∀ record' ∈ queueOf state tenantId', record.sequence = record'.sequence →
        tenantId = tenantId' ∧ record = record') ∧
    (∀ envelope, ¬(telemetry.emit state envelope).1.isOk →
      (telemetry.emit state envelope).2 = state) ∧
    ∀ tenantId filter, query state tenantId filter =
        ((validateQuery filter maxQueryLimit).map fun _ =>
          ((queueOf state tenantId).reverse.filter fun record =>
            recordMatches record filter).take filter.limit) ∧
      ∀ record ∈ queueOf state tenantId, record.envelope.tenantId = tenantId := by
  intro state accepted
  have hinv : Inv telemetry accepted state := inv_run telemetry run
  refine ⟨hinv.total, hinv.total_le, fun tenantId => ⟨?_, ?_⟩, hinv.ascending, hinv.unique,
    fun envelope hrefused => emit_refused hrefused, fun tenantId filter =>
      ⟨hinv.query_eq tenantId filter, fun record hrecord => hinv.tenantId_eq hrecord⟩⟩
  · rw [hinv.retained]
    exact lastOf_suffix _ _
  · rw [← List.length_map (f := TelemetryRecordV1.envelope), hinv.retained, length_lastOf]

end LocalTelemetry

end RustFactory.Observability
