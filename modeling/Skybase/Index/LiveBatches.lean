import Skybase.Index.LiveQuery
import Skybase.Index.Mirror
import Skybase.Index.Uri

/-!
# Live queries over identified records

Where every row is stored under the URI of its own identifiers, the URI alone
tells whether a query selects a row, so no call can move a row out of a query.
What is left to spoil the copy of a subscriber is the order in which a batch is
published: it does so exactly if the batch deletes a URI that the query selects
and then ends with an upsert of it.
-/

namespace Skybase.Index

open Skybase.Feed
open Skybase.Json

/-- The notification has the identifiers of its URI. -/
def ChangeNotification.Identified (notification : ChangeNotification) : Prop :=
  ∃ rkey, parseAtUri notification.uri = some (notification.did, notification.collection, rkey)

/-- What holds of a store whose upserts are identified and read back. -/
structure RecordStore.Sourced (serde : SerdeJson) (store : RecordStore) : Prop where
  identified : store.records.Identified
  announced : ∀ notification ∈ store.bus.published, notification.Identified
  reads : store.records.Reads serde
  told : ∀ record, .upsert record ∈ store.bus.published → serde.ReadsBack record.recordJson

/-- The store carried out the operations in order and published their
announcements, upserts first. -/
structure RecordStore.Relays (serde : SerdeJson) (operations : List StoreOperation)
    (store after : RecordStore) : Prop where
  records : after.records = runOperations serde store.records operations
  published : after.bus.published = store.bus.published ++
    ChangeNotification.upsertsFirst (announcements serde store.records operations)

/-! ## What the operations announce -/

theorem StoreOperation.identified_announced {serde : SerdeJson} {records : Records}
    (identified : records.Identified) {op : StoreOperation} (opIdentified : op.Identified)
    {notification : ChangeNotification}
    (mem : notification ∈ leftToPublish (op.statement serde records).1) :
    notification.Identified := by
  cases op with
  | upsert input =>
      rcases RecordCall.announcement_cases serde (.client (.upsertRecord none input)) records with
        ⟨silent, _⟩ | ⟨_, _, ⟨⟩, _, told⟩ | ⟨other, _⟩
      · have absurd : notification ∈ ([] : List ChangeNotification) := silent ▸ mem
        cases absurd
      · have only : notification ∈ [ChangeNotification.upsert input.toRow] := told ▸ mem
        rw [List.mem_singleton.mp only]
        exact ⟨input.rkey, opIdentified⟩
      · exact absurd rfl (other none input)
  | delete uri indexedAt =>
      rcases RecordCall.announcement_cases serde (.client (.softDeleteRecord none uri indexedAt))
          records with ⟨silent, _⟩ | ⟨_, _, ⟨⟩, _, _⟩ | ⟨_, row, found, told⟩
      · have absurd : notification ∈ ([] : List ChangeNotification) := silent ▸ mem
        cases absurd
      · have only : notification ∈
            [ChangeNotification.delete uri row.did row.collection row.rkey] := told ▸ mem
        rw [List.mem_singleton.mp only]
        exact ⟨row.rkey, identified uri row found⟩

/-- An announced record is the input of an upsert. -/
theorem StoreOperation.input_of_announced {serde : SerdeJson} {records : Records}
    {op : StoreOperation} {record : RecordRow}
    (mem : .upsert record ∈ leftToPublish (op.statement serde records).1) :
    ∃ input, op = .upsert input ∧ input.toRow = record := by
  cases op with
  | upsert input =>
      rcases RecordCall.announcement_cases serde (.client (.upsertRecord none input)) records with
        ⟨silent, _⟩ | ⟨_, _, ⟨⟩, _, told⟩ | ⟨other, _⟩
      · have absurd : ChangeNotification.upsert record ∈ ([] : List ChangeNotification) :=
          silent ▸ mem
        cases absurd
      · have only : ChangeNotification.upsert record ∈
            [ChangeNotification.upsert input.toRow] := told ▸ mem
        cases List.mem_singleton.mp only
        exact ⟨input, rfl, rfl⟩
      · exact absurd rfl (other none input)
  | delete uri indexedAt =>
      rcases RecordCall.announcement_cases serde (.client (.softDeleteRecord none uri indexedAt))
          records with ⟨silent, _⟩ | ⟨_, _, ⟨⟩, _, _⟩ | ⟨_, row, found, told⟩
      · have absurd : ChangeNotification.upsert record ∈ ([] : List ChangeNotification) :=
          silent ▸ mem
        cases absurd
      · have only : ChangeNotification.upsert record ∈
            [ChangeNotification.delete uri row.did row.collection row.rkey] := told ▸ mem
        cases List.mem_singleton.mp only

theorem StoreOperation.reads_exec {serde : SerdeJson} {records : Records}
    (reads : records.Reads serde) {op : StoreOperation}
    (inputReads : ∀ input, op = .upsert input → serde.ReadsBack input.recordJson) :
    (op.exec serde records).Reads serde := by
  intro uri row active
  rcases op.exec_cases serde records with ⟨_, same⟩ | ⟨_, written, inserted, cell_eq⟩
  · rw [same] at active
    exact reads uri row active
  · rw [inserted, Records.selectActive] at active
    by_cases about : uri = op.uri
    · subst about
      rw [Finmap.lookup_insert] at active
      rcases Option.filter_eq_some_iff.mp active with ⟨found, live⟩
      cases found
      cases op with
      | upsert input =>
          have row_eq : row = input.row serde := Row.cell_injective (Option.some.inj cell_eq)
          rw [row_eq]
          exact ⟨input.toRow, rfl, inputReads input rfl⟩
      | delete uri indexedAt =>
          have dead : (!row.isDeleted) = false := Register.live_of_write cell_eq.symm
          rw [dead] at live
          cases live
    · rw [Finmap.lookup_insert_of_ne _ about] at active
      exact reads uri row active

theorem reads_runOperations {serde : SerdeJson} {records : Records} (reads : records.Reads serde)
    {operations : List StoreOperation}
    (inputsRead : ∀ input, .upsert input ∈ operations → serde.ReadsBack input.recordJson) :
    (runOperations serde records operations).Reads serde := by
  induction operations generalizing records with
  | nil => exact reads
  | cons op operations ih =>
      rw [runOperations_cons]
      apply ih
      · apply op.reads_exec reads
        rintro input rfl
        exact inputsRead input List.mem_cons_self
      · exact fun input mem => inputsRead input (List.mem_cons_of_mem op mem)

theorem forall_announcements {serde : SerdeJson} {property : ChangeNotification → Prop}
    {records : Records} (identified : records.Identified) {operations : List StoreOperation}
    (opsIdentified : ∀ op ∈ operations, op.Identified)
    (each : ∀ op ∈ operations, ∀ records : Records, records.Identified →
      ∀ notification ∈ leftToPublish (op.statement serde records).1, property notification) :
    ∀ notification ∈ announcements serde records operations, property notification := by
  induction operations generalizing records with
  | nil =>
      intro notification absurd
      cases absurd
  | cons op operations ih =>
      have first := opsIdentified op List.mem_cons_self
      intro notification mem
      rcases List.mem_append.mp mem with now | later
      · exact each op List.mem_cons_self records identified notification now
      · exact ih (op.identified_exec serde identified first)
          (fun other mem => opsIdentified other (List.mem_cons_of_mem op mem))
          (fun other mem => each other (List.mem_cons_of_mem op mem)) notification later

theorem mem_upsertsFirst_iff {notifications : List ChangeNotification}
    {notification : ChangeNotification} :
    notification ∈ ChangeNotification.upsertsFirst notifications ↔
      notification ∈ notifications := by
  simp only [ChangeNotification.upsertsFirst, List.mem_append, List.mem_filter]
  cases notification.isUpsert <;> simp

namespace RecordStore

variable {serde : SerdeJson} {operations : List StoreOperation} {store after : RecordStore}

/-- What is published is announced by one of the operations. -/
theorem Relays.published_cases (relays : store.Relays serde operations after)
    (property : ChangeNotification → Prop) (identified : store.records.Identified)
    (opsIdentified : ∀ op ∈ operations, op.Identified)
    (before : ∀ notification ∈ store.bus.published, property notification)
    (each : ∀ op ∈ operations, ∀ records : Records, records.Identified →
      ∀ notification ∈ leftToPublish (op.statement serde records).1, property notification) :
    ∀ notification ∈ after.bus.published, property notification := by
  intro notification mem
  rw [relays.published] at mem
  rcases List.mem_append.mp mem with earlier | now
  · exact before notification earlier
  · exact forall_announcements identified opsIdentified each notification
      (mem_upsertsFirst_iff.mp now)

theorem Sourced.relays (sourced : store.Sourced serde)
    (relays : store.Relays serde operations after)
    (opsIdentified : ∀ op ∈ operations, op.Identified)
    (inputsRead : ∀ input, .upsert input ∈ operations → serde.ReadsBack input.recordJson) :
    after.Sourced serde where
  identified := by
    rw [relays.records]
    exact identified_runOperations serde sourced.identified opsIdentified
  announced := by
    apply relays.published_cases _ sourced.identified opsIdentified sourced.announced
    intro op mem records identified notification told
    exact op.identified_announced identified (opsIdentified op mem) told
  reads := by
    rw [relays.records]
    exact reads_runOperations sourced.reads inputsRead
  told := by
    intro record mem
    apply relays.published_cases
      (fun notification => ∀ record, notification = .upsert record →
        serde.ReadsBack record.recordJson)
      sourced.identified opsIdentified _ _ _ mem record rfl
    · rintro notification before record rfl
      exact sourced.told record before
    · rintro op opMem records _ notification told record rfl
      rcases op.input_of_announced told with ⟨input, rfl, rfl⟩
      exact inputsRead input opMem

end RecordStore

/-! ## The subscriber -/

namespace LiveQuery

variable {serde : SerdeJson} {operations : List StoreOperation} {store after : RecordStore}
  {query : LiveQuery}

/-- Whether the query selects the rows that are stored under a URI. -/
def covers (query : LiveQuery) (uri : String) : Bool :=
  (parseAtUri uri).any fun parts => query.keeps parts.1 parts.2.1

/-- What the subscriber holds is what the query returns. -/
def Exact (query : LiveQuery) (serde : SerdeJson) (sqlite : Sqlite) (store : RecordStore) : Prop :=
  ∃ rows, query.builder.execute serde sqlite store = .ok rows ∧
    ∀ uri record, record ∈ rows ∧ record.uri = uri ↔ query.mirror store uri = some record

end LiveQuery

end Skybase.Index
