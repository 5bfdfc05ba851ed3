import Mathlib

/-!
# Job records and the Redis commands of the inference queue

The queue keeps two lists of job IDs and one hash per job.  A hash is a `Record` of optional
fields; `HSET` on a missing key creates it, without a TTL.  Clock readings are integers, counted in
the resolution of the clock, so that `now - lease` is exact.
-/

namespace Kernexys.Queue

/-- The ID of a job. -/
abbrev JobId := String

/-- The texts the code writes to a record's `status` field. -/
inductive Status
  | queued
  | running
  | succeeded
  | failed
deriving DecidableEq, Repr

/-- `succeeded` and `failed` are the terminal statuses. -/
def Status.terminal : Status → Bool
  | .succeeded | .failed => true
  | .queued | .running => false

/-- The text of a `claimed_at` field: the numeral `repr` writes for a clock reading, or a text that
Lua's `tonumber` rejects. -/
inductive Stamp
  | numeral (reading : ℤ)
  | other (text : String)
deriving DecidableEq, Repr

/-- Lua's `tonumber`, with `nil` as `none`. -/
def Stamp.tonumber : Stamp → Option ℤ
  | .numeral reading => some reading
  | .other _ => none

/-- The hash of one job, and the deadline its TTL sets. -/
structure Record where
  status : Option Status := none
  payload : Option String := none
  claimedAt : Option Stamp := none
  result : Option String := none
  error : Option String := none
  expireAt : Option ℤ := none
deriving DecidableEq, Repr

/-- The record carries a terminal status. -/
def Record.Terminal (r : Record) : Prop := ∃ st, r.status = some st ∧ st.terminal = true

/-- The record carries a status that is not terminal. -/
def Record.Live (r : Record) : Prop := ∃ st, r.status = some st ∧ st.terminal = false

instance (r : Record) : Decidable r.Terminal :=
  match h : r.status with
  | none => isFalse (by rintro ⟨st, hs, -⟩; simp [h] at hs)
  | some st => decidable_of_iff (st.terminal = true) (by simp [Record.Terminal, h])

instance (r : Record) : Decidable r.Live :=
  match h : r.status with
  | none => isFalse (by rintro ⟨st, hs, -⟩; simp [h] at hs)
  | some st => decidable_of_iff (st.terminal = false) (by simp [Record.Live, h])

theorem Record.Live.not_terminal {r : Record} (live : r.Live) : ¬ r.Terminal := by
  obtain ⟨st, hs, ht⟩ := live
  rintro ⟨st', hs', ht'⟩
  rw [hs] at hs'
  obtain rfl := Option.some.inj hs'
  rw [ht] at ht'
  cases ht'

theorem Record.terminal_or_live {r : Record} (h : r.status ≠ none) : r.Terminal ∨ r.Live := by
  obtain ⟨st, hs⟩ := Option.ne_none_iff_exists'.1 h
  cases ht : st.terminal with
  | true => exact Or.inl ⟨st, hs, ht⟩
  | false => exact Or.inr ⟨st, hs, ht⟩

/-- What a caller can read of a finished job. -/
structure Outcome where
  status : Option Status
  result : Option String
  error : Option String
deriving DecidableEq, Repr

/-- What a record says about how its job ended. -/
def Record.outcome (r : Record) : Outcome := ⟨r.status, r.result, r.error⟩

/-- The record of one job ID and the number of its entries in the queue and in the processing
list. -/
structure JobView where
  record : Option Record
  queued : ℕ
  processing : ℕ
deriving DecidableEq, Repr

namespace JobView

variable (v : JobView)

/-- The number of entries in both lists. -/
def listed : ℕ := v.queued + v.processing

/-- There is a record, and its status is not terminal. -/
def Live : Prop := ∃ h, v.record = some h ∧ h.Live

/-- There is a record, and its status is terminal. -/
def Terminal : Prop := ∃ h, v.record = some h ∧ h.Terminal

variable {v}

theorem Live.not_terminal (live : v.Live) : ¬ v.Terminal := by
  obtain ⟨h, found, live⟩ := live
  rintro ⟨h', found', terminal⟩
  rw [found] at found'
  obtain rfl := Option.some.inj found'
  exact live.not_terminal terminal

instance (v : JobView) : Decidable v.Terminal :=
  match h : v.record with
  | none => isFalse (by rintro ⟨_, found, -⟩; simp [h] at found)
  | some rec => decidable_of_iff rec.Terminal (by simp [Terminal, h])

end JobView

/-- The keys of the queue: the queued list, the processing list and the job hashes. -/
structure Redis where
  queue : List JobId
  processing : List JobId
  job : JobId → Option Record

namespace Redis

variable (r : Redis) (j : JobId)

/-- Two empty lists and no record. -/
def empty : Redis := ⟨[], [], fun _ => none⟩

/-- `HSET`: write fields of the hash, creating it when the key is missing. -/
def hset (write : Record → Record) : Redis :=
  { r with job := Function.update r.job j (some (write ((r.job j).getD {}))) }

/-- `HDEL key claimed_at`. -/
def hdelClaimedAt : Redis :=
  { r with
    job := Function.update r.job j ((r.job j).map fun h => { h with claimedAt := none }) }

/-- `EXPIRE`: set the deadline of an existing key. -/
def expire (deadline : ℤ) : Redis :=
  { r with
    job := Function.update r.job j ((r.job j).map fun h => { h with expireAt := some deadline }) }

/-- The key is gone once its TTL lapses. -/
def del : Redis := { r with job := Function.update r.job j none }

/-- `LREM processing 1 j`: remove the first occurrence. -/
def lrem : Redis := { r with processing := r.processing.erase j }

/-- The number of entries `LREM processing 1 j` removes. -/
def lremCount : ℕ := if j ∈ r.processing then 1 else 0

/-- `RPUSH queue j`. -/
def rpush : Redis := { r with queue := r.queue ++ [j] }

/-- `BLMOVE queue processing LEFT RIGHT`, when the queue is not empty. -/
def blmove : Option (JobId × Redis) :=
  match r.queue with
  | [] => none
  | j :: rest => some (j, ⟨rest, r.processing ++ [j], r.job⟩)

/-- What the keys hold about one job ID: its record and its entries in the two lists. -/
def view : JobView := ⟨r.job j, r.queue.count j, r.processing.count j⟩

variable {r j} {i : JobId}

@[simp] theorem view_hset {f : Record → Record} :
    (r.hset j f).view j = { r.view j with record := some (f ((r.job j).getD {})) } := by
  simp [view, hset]

theorem view_hset_ne {f : Record → Record} (h : i ≠ j) : (r.hset j f).view i = r.view i := by
  simp [view, hset, h]

theorem view_hdelClaimedAt_ne (h : i ≠ j) : (r.hdelClaimedAt j).view i = r.view i := by
  simp [view, hdelClaimedAt, h]

theorem view_expire_ne {d : ℤ} (h : i ≠ j) : (r.expire j d).view i = r.view i := by
  simp [view, expire, h]

@[simp] theorem view_del : (r.del j).view j = { r.view j with record := none } := by
  simp [view, del]

theorem view_del_ne (h : i ≠ j) : (r.del j).view i = r.view i := by
  simp [view, del, h]

@[simp] theorem view_lrem :
    (r.lrem j).view j = { r.view j with processing := (r.view j).processing - 1 } := by
  simp [view, lrem]

theorem view_lrem_ne (h : i ≠ j) : (r.lrem j).view i = r.view i := by
  simp [view, lrem, List.count_erase_of_ne h]

theorem view_rpush_ne (h : i ≠ j) : (r.rpush j).view i = r.view i := by
  simp [view, rpush, Ne.symm h]

theorem view_blmove {rest : List JobId} (front : r.queue = j :: rest) :
    view ⟨rest, r.processing ++ [j], r.job⟩ j = { r.view j with
      queued := (r.view j).queued - 1, processing := (r.view j).processing + 1 } := by
  simp [view, front]

theorem view_blmove_ne {rest : List JobId} (front : r.queue = j :: rest) (h : i ≠ j) :
    view ⟨rest, r.processing ++ [j], r.job⟩ i = r.view i := by
  simp [view, front, Ne.symm h]

theorem lremCount_eq_one : r.lremCount j = 1 ↔ 0 < (r.view j).processing := by
  unfold lremCount view
  rw [List.count_pos_iff]
  split_ifs with h <;> simp [h]

theorem blmove_eq_some {r' : Redis} :
    r.blmove = some (j, r') ↔ ∃ rest, r.queue = j :: rest ∧
      r' = ⟨rest, r.processing ++ [j], r.job⟩ := by
  unfold blmove
  cases hq : r.queue with
  | nil => simp
  | cons k rest =>
    simp only [Option.some.injEq, Prod.mk.injEq, List.cons.injEq]
    constructor
    · rintro ⟨rfl, rfl⟩
      exact ⟨rest, ⟨rfl, rfl⟩, rfl⟩
    · rintro ⟨rest', ⟨rfl, rfl⟩, rfl⟩
      exact ⟨rfl, rfl⟩

end Redis

end Kernexys.Queue
