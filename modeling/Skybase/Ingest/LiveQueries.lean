import Skybase.Index.LiveBatches
import Skybase.Ingest.Identity
import Skybase.Ingest.ReaderRefinement

/-!
# From the socket to the subscriber

A client that follows a query of the store while the consumer fills it takes
the matching notifications and applies them to its copy.  Commits are parsed
before they are stored, so every row lies under the URI of its identifiers and
no commit moves a record out of the query.  While the stored payloads read back,
the copy is exact after every step of the two tasks, crashes and failures
included, up to the first batch that deletes and recreates a record of the query.
-/

namespace Skybase.Ingest

open Skybase.Index
open Skybase.Json
open Skybase.Transition (Along Always)

/-! ## Short lists of operations -/

namespace Live

variable {serde : SerdeJson} {decode : String → Except String RawJetstreamMessage}
  {config : ReaderConfig} {source target : Live}

/-- Whether a batch that succeeds recreates no record of the query. -/
def KeepsExact (serde : SerdeJson) (query : LiveQuery) (live : Live) : LiveStep → Prop
  | .worker (.flush sqlite) =>
      BatchSucceeds serde sqlite live.buffer live.worker.store →
        ∀ uri, query.covers uri = true →
          ¬ Recreated uri (effective serde live.worker.store.records
            (live.buffer.filterMap JetstreamCommit.toOperation))
  | _ => True

/-- What a step asks of the store, for a guard that it meets or that is about
its batch. -/
structure Asks (serde : SerdeJson) (source target : Live) (step : LiveStep)
    (operations : List StoreOperation) : Prop where
  relays : source.worker.store.Relays serde operations target.worker.store
  asked : ∀ op ∈ operations, ∃ commit ∈ source.buffer, commit.toOperation = some op
  guarded : ∀ query, (∀ uri, query.covers uri = true →
      ¬ Recreated uri (effective serde source.worker.store.records operations)) ↔
    source.KeepsExact serde query step

/-- The commits on their way were parsed. -/
structure Handed (decode : String → Except String RawJetstreamMessage) (live : Live) : Prop where
  pending : ∀ commit ∈ live.buffer ++ live.channel, Parsed decode commit
  sending : ∀ commit, live.reader.place = .sending commit → Parsed decode commit

/-- A step that hands on what it has. -/
theorem Handed.step (handed : source.Handed decode)
    (pending : ∀ commit ∈ target.buffer ++ target.channel,
      commit ∈ source.buffer ++ source.channel ∨ Parsed decode commit)
    (sending : ∀ commit, target.reader.place = .sending commit → Parsed decode commit) :
    target.Handed decode where
  pending commit mem := by
    rcases pending commit mem with before | parsed
    · exact handed.pending commit before
    · exact parsed
  sending := sending

end Live

end Skybase.Ingest
