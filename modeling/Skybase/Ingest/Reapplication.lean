import Skybase.Ingest.Batching
import Skybase.Register.Retrace
import Skybase.Replay.Redelivery

/-!
# Commits that are applied again

Commits that are redelivered in the order of their timestamps do no harm.  If
those on one URI have different timestamps, each of them settles: once applied,
it changes nothing any more.  With ties a commit can undo its successor, but
applying the rest of the list again always makes up for it.
-/

namespace Skybase.Ingest

open Skybase.Index
open Skybase.Json
open Skybase.Replay (Settles Retraces)

section Commits

variable {serde : SerdeJson} {commits : List JetstreamCommit}

/-- The timestamps of a list of commits do not decrease. -/
def InOrder (commits : List JetstreamCommit) : Prop :=
  commits.Pairwise fun first second => first.timeUs ≤ second.timeUs

/-- Usable commits on one URI with one timestamp ask for one operation. -/
def Unambiguous (commits : List JetstreamCommit) : Prop :=
  ∀ first ∈ usableCommits commits, ∀ second ∈ usableCommits commits,
    first.uri = second.uri → first.timeUs = second.timeUs → first.toOperation = second.toOperation

theorem unambiguous_singleton (commit : JetstreamCommit) : Unambiguous [commit] := by
  intro first firstMem second secondMem _ _
  rw [List.mem_singleton.mp (List.mem_filter.mp firstMem).1,
    List.mem_singleton.mp (List.mem_filter.mp secondMem).1]

/-- The register operations that commits ask for on one URI. -/
def commitsAt (serde : SerdeJson) (uri : String) (commits : List JetstreamCommit) :
    List (Register.Op Int Content) :=
  opsAt serde uri (commits.filterMap JetstreamCommit.toOperation)

theorem mem_commitsAt_iff {uri : String} {registerOp : Register.Op Int Content} :
    registerOp ∈ commitsAt serde uri commits ↔
      ∃ commit ∈ usableCommits commits, ∃ op, commit.toOperation = some op ∧ op.uri = uri ∧
        op.registerOp serde = registerOp := by
  simp only [commitsAt, mem_opsAt_iff, List.mem_filterMap, usableCommits, List.mem_filter,
    decide_eq_true_eq]
  constructor
  · rintro ⟨op, ⟨commit, mem, asked⟩, about, fits, rfl⟩
    rw [JetstreamCommit.indexedAt_of_toOperation asked] at fits
    exact ⟨commit, ⟨mem, fits, by rw [asked]; rfl⟩, op, asked, about, rfl⟩
  · rintro ⟨commit, ⟨mem, usable⟩, op, asked, about, rfl⟩
    have fits : FitsI64 op.indexedAt := by
      rw [JetstreamCommit.indexedAt_of_toOperation asked]
      exact usable.1
    exact ⟨op, ⟨commit, mem, asked⟩, about, fits, rfl⟩

theorem commitsAt_append (uri : String) (first second : List JetstreamCommit) :
    commitsAt serde uri (first ++ second) =
      commitsAt serde uri first ++ commitsAt serde uri second := by
  rw [commitsAt, List.filterMap_append, opsAt_append]
  rfl

theorem cellAt_foldl_applyCommit (records : Records) (uri : String) :
    cellAt uri (commits.foldl (applyCommit serde) records) =
      Register.run (cellAt uri records) (commitsAt serde uri commits) := by
  rw [foldl_applyCommit, cellAt_runOperations, commitsAt]

theorem version_of_toOperation {commit : JetstreamCommit} {op : StoreOperation}
    (asked : commit.toOperation = some op) :
    (op.registerOp serde).version = commit.timeUs.toInt := by
  rw [StoreOperation.version_registerOp, JetstreamCommit.indexedAt_of_toOperation asked]

theorem ordered_commitsAt (inOrder : InOrder commits) (uri : String) :
    Register.Ordered (commitsAt serde uri commits) := by
  apply List.pairwise_map.mpr
  apply List.Pairwise.filter
  apply List.pairwise_filterMap.mpr
  apply inOrder.imp
  intro first second le op asked later laterAsked
  rw [version_of_toOperation asked, version_of_toOperation laterAsked]
  exact (U64.toInt_le_toInt_iff _ _).mpr le

theorem tieFree_commitsAt (unambiguous : Unambiguous commits) (uri : String) :
    Register.TieFree (commitsAt serde uri commits) := by
  intro first firstMem second secondMem tie
  rcases mem_commitsAt_iff.mp firstMem with ⟨commit, mem, op, asked, rfl, rfl⟩
  rcases mem_commitsAt_iff.mp secondMem with ⟨other, otherMem, otherOp, otherAsked, about, rfl⟩
  rw [version_of_toOperation asked, version_of_toOperation otherAsked] at tie
  have same := unambiguous commit mem other otherMem
    (by rw [← JetstreamCommit.uri_of_toOperation asked, ← about,
      JetstreamCommit.uri_of_toOperation otherAsked])
    (U64.toInt_inj.mp tie)
  rw [asked, otherAsked] at same
  rw [Option.some.inj same]

/-- Unambiguous commits in order settle. -/
theorem settles_applyCommit (serde : SerdeJson) (records : Records) (inOrder : InOrder commits)
    (unambiguous : Unambiguous commits) : Settles (applyCommit serde) records commits := by
  intro frontier index commit passed at_index
  have mem : commit ∈ commits.take frontier := by
    rcases List.getElem?_eq_some_iff.mp at_index with ⟨bound, rfl⟩
    exact List.mem_take_iff_getElem.mpr ⟨index, by omega, rfl⟩
  have within := List.take_sublist frontier commits
  have unambiguousWithin : Unambiguous (commits.take frontier) := by
    intro first firstMem second secondMem
    exact unambiguous first ((within.filter _).subset firstMem) second
      ((within.filter _).subset secondMem)
  apply Finmap.ext_lookup
  intro uri
  apply lookup_eq_of_cellAt_eq
  change cellAt uri ([commit].foldl (applyCommit serde) _) = _
  rw [cellAt_foldl_applyCommit, cellAt_foldl_applyCommit]
  apply Register.run_eq_self
  intro op opMem
  have applied : op ∈ commitsAt serde uri (commits.take frontier) := by
    rcases mem_commitsAt_iff.mp opMem with ⟨other, otherMem, asks⟩
    rcases List.mem_filter.mp otherMem with ⟨single, usable⟩
    rw [List.mem_singleton.mp single] at asks usable
    exact mem_commitsAt_iff.mpr ⟨commit, List.mem_filter.mpr ⟨mem, usable⟩, asks⟩
  exact Register.step_run_of_mem (ordered_commitsAt (inOrder.sublist within) uri)
    (tieFree_commitsAt unambiguousWithin uri) applied

/-- Commits in order retrace, ambiguous or not. -/
theorem retraces_applyCommit (serde : SerdeJson) (records : Records) (inOrder : InOrder commits) :
    Retraces (applyCommit serde) records commits := by
  intro past executed count among caughtUp
  apply Finmap.ext_lookup
  intro uri
  apply lookup_eq_of_cellAt_eq
  have split : commitsAt serde uri commits =
      commitsAt serde uri (commits.take count) ++ commitsAt serde uri (commits.drop count) := by
    rw [← commitsAt_append, List.take_append_drop]
  have caughtUpAt := congrArg (cellAt uri) caughtUp
  rw [cellAt_foldl_applyCommit, cellAt_foldl_applyCommit, cellAt_foldl_applyCommit, split]
    at caughtUpAt
  rw [cellAt_foldl_applyCommit, cellAt_foldl_applyCommit, cellAt_foldl_applyCommit, split]
  apply Register.run_retrace _ _ caughtUpAt
  · rw [← split]
    exact ordered_commitsAt inOrder uri
  · intro op mem
    rcases mem_commitsAt_iff.mp mem with ⟨commit, commitMem, asks⟩
    rcases List.mem_filter.mp commitMem with ⟨listed, usable⟩
    exact mem_commitsAt_iff.mpr ⟨commit, List.mem_filter.mpr ⟨among commit listed, usable⟩, asks⟩

end Commits

end Skybase.Ingest
