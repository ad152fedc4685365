import LibEvRpc.Proofs.TimerPool

/-! # One call of the crawler

Buffer by buffer the crawler erases the keys of a list from the pool and inserts those of the buffer
that are not in the list. A key is in the pool behind the call if the last list with it comes in front
of a buffer that has it, or if it was there and is in no list. The erasure finds a timer because
each key is only ever in the bucket of its hash.
-/

namespace LibEvRpc

open Std.ExtTreeMap

namespace ConnectionTimerManager

def entryAt (buckets : ℕ → Option TimerMap) (bucket : ℕ) (key : Bytes) : Option ConnectionTimer :=
  (buckets bucket).bind fun map => map[key]?

/-- Each key is at most in the bucket of its hash, which is one of the array. -/
def Placed (buckets : ℕ → Option TimerMap) : Prop :=
  ∀ bucket key, (entryAt buckets bucket key).isSome →
    bucket = generateBucketNum key ∧ bucket < bucketsSize

def Pooled (buckets : ℕ → Option TimerMap) (key : Bytes) : Prop :=
  ∃ bucket, (entryAt buckets bucket key).isSome

end ConnectionTimerManager

def WorkerBuf.Buffers (buf : WorkerBuf) (key : Bytes) : Prop := key ∈ buf.connectionBuf.getD ∅

def WorkerBuf.Deletes (buf : WorkerBuf) (key : Bytes) : Prop := key ∈ buf.connectionDelList.getD []

instance (buf : WorkerBuf) (key : Bytes) : Decidable (buf.Deletes key) :=
  inferInstanceAs (Decidable (_ ∈ _))

namespace ConnectionTimerManager

/-! ## Placement -/

theorem placed_update {buckets : ℕ → Option TimerMap} {key : Bytes} {map : Option TimerMap}
    (placed : Placed buckets)
    (others : ∀ other, ((map.bind fun map => map[other]?).isSome) →
      other = key ∨ (entryAt buckets (generateBucketNum key) other).isSome) :
    Placed (Function.update buckets (generateBucketNum key) map) := by
  intro bucket other present
  rw [entryAt, Function.update_apply] at present
  split at present
  · next same =>
    subst same
    rcases others other present with rfl | old
    · exact ⟨rfl, Nat.mod_lt _ (by decide)⟩
    · exact placed _ other old
  · exact placed bucket other present

theorem placed_eraseTimer {buckets : ℕ → Option TimerMap} (placed : Placed buckets) (key : Bytes) :
    Placed (eraseTimer buckets key) := by
  apply placed_update placed
  intro other present
  rw [entryAt]
  cases found : buckets (generateBucketNum key) with
  | none =>
    rw [found] at present
    contradiction
  | some map =>
    rw [found, Option.map_some, Option.bind_some, getElem?_erase] at present
    split at present
    · contradiction
    · exact .inr present

theorem placed_insertTimer {buckets : ℕ → Option TimerMap} (placed : Placed buckets)
    (entry : Bytes × ConnectionTimer) : Placed (insertTimer buckets entry) := by
  apply placed_update placed
  intro other present
  rw [Option.bind_some, getElem?_insertIfNew_eq, Option.isSome_or, Bool.or_eq_true] at present
  rcases present with old | new
  · right
    rw [entryAt]
    cases found : buckets (generateBucketNum entry.1) with
    | none =>
      rw [found, Option.getD_none, getElem?_empty] at old
      contradiction
    | some map =>
      rw [found] at old
      exact old
  · left
    split at new
    · next same => exact same.symm
    · contradiction

theorem placed_foldl {α : Type} {change : (ℕ → Option TimerMap) → α → ℕ → Option TimerMap}
    (keeps : ∀ buckets item, Placed buckets → Placed (change buckets item)) (items : List α)
    {buckets : ℕ → Option TimerMap} (placed : Placed buckets) : Placed (items.foldl change buckets) := by
  induction items generalizing buckets with
  | nil => exact placed
  | cons item items ih => exact ih (keeps buckets item placed)

/-- In a pool where each key is in its bucket, that bucket tells everything. -/
theorem Placed.entryAt_eq {buckets : ℕ → Option TimerMap} (placed : Placed buckets) (bucket : ℕ)
    (key : Bytes) :
    entryAt buckets bucket key =
      if bucket = generateBucketNum key then timerAt buckets key else none := by
  split
  · next same =>
    rw [same]
    rfl
  · next other =>
    cases found : entryAt buckets bucket key with
    | none => rfl
    | some timer => exact absurd (placed bucket key (found ▸ rfl)).1 other

theorem Placed.pooled_iff {buckets : ℕ → Option TimerMap} (placed : Placed buckets) {key : Bytes} :
    Pooled buckets key ↔ (timerAt buckets key).isSome := by
  constructor
  · rintro ⟨bucket, present⟩
    rw [(placed bucket key present).1] at present
    exact present
  · exact fun present => ⟨_, present⟩

/-! ## The loop over the buffers -/

/-- The pool behind the buffer and the list of one worker. -/
def mergeBuf (buckets : ℕ → Option TimerMap) (buf : WorkerBuf) : ℕ → Option TimerMap :=
  let delKeys := buf.connectionDelList.getD []
  (delKeys.foldl (fun map key => map.erase key) (buf.connectionBuf.getD ∅)).toList.foldl insertTimer
    (delKeys.foldl eraseTimer buckets)

theorem placed_mergeBuf (buckets : ℕ → Option TimerMap) (buf : WorkerBuf) (placed : Placed buckets) :
    Placed (mergeBuf buckets buf) :=
  placed_foldl (fun _ entry old => placed_insertTimer old entry) _
    (placed_foldl (fun _ key old => placed_eraseTimer old key) _ placed)

theorem timerAt_mergeBuf (buckets : ℕ → Option TimerMap) (buf : WorkerBuf) (key : Bytes) :
    timerAt (mergeBuf buckets buf) key =
      if buf.Deletes key then none
      else (timerAt buckets key).or ((buf.connectionBuf.getD ∅)[key]?) :=
  timerAt_taken _ _ _ _

private theorem modify_length_append {α : Type} (front back : List α) (item : α) (change : α → α) :
    (front ++ item :: back).modify front.length change = front ++ change item :: back := by
  induction front with
  | nil => rfl
  | cons first front ih =>
    rw [List.cons_append, List.length_cons, List.modify_succ_cons, ih]
    rfl

/-- An iteration empties the buffer and the list of its worker. -/
theorem crawlBuf_eq {manager : ConnectionTimerManager} {front back : List WorkerBuf}
    {buf : WorkerBuf} (bufs : manager.workerBufs = front ++ buf :: back) :
    manager.crawlBuf front.length =
      some { manager with
        workerBufs := front ++ ⟨none, none⟩ :: back
        connectionPoolBuckets := mergeBuf manager.connectionPoolBuckets buf } := by
  have found (item : WorkerBuf) : (front ++ item :: back)[front.length]? = some item := by
    rw [List.getElem?_append_right (Nat.le_refl _), Nat.sub_self]
    rfl
  simp only [crawlBuf, takeDelList, takeBuf, bufs, found, Option.map_some, Option.bind_some,
    modify_length_append]
  rfl

/-- The loop up to some buffer. -/
theorem crawl_take (manager : ConnectionTimerManager) {count : ℕ}
    (inside : count ≤ manager.workerBufs.length) :
    (List.range count).foldlM crawlBuf manager =
      some { manager with
        workerBufs := List.replicate count ⟨none, none⟩ ++ manager.workerBufs.drop count
        connectionPoolBuckets :=
          (manager.workerBufs.take count).foldl mergeBuf manager.connectionPoolBuckets } := by
  induction count with
  | zero => rfl
  | succ count ih =>
    have bound : count < manager.workerBufs.length := inside
    have shape := List.drop_eq_getElem_cons bound
    rw [List.range_succ, List.foldlM_append, ih (Nat.le_of_succ_le inside)]
    change (List.foldlM crawlBuf _ [count]) = _
    rw [List.foldlM_cons]
    have iteration := @crawlBuf_eq { manager with
      workerBufs := List.replicate count ⟨none, none⟩ ++ manager.workerBufs.drop count
      connectionPoolBuckets :=
        (manager.workerBufs.take count).foldl mergeBuf manager.connectionPoolBuckets }
      (List.replicate count ⟨none, none⟩) (manager.workerBufs.drop (count + 1))
      manager.workerBufs[count] (by rw [← shape])
    rw [List.length_replicate] at iteration
    rw [iteration, List.take_add_one, List.getElem?_eq_getElem bound, List.foldl_append,
      List.replicate_succ', List.append_assoc]
    rfl

/-- The crawler always returns, with all buffers and lists empty and their keys merged into the
pool. -/
theorem connectionBufCrawler_eq (manager : ConnectionTimerManager) :
    manager.connectionBufCrawler =
      some { manager with
        workerBufs := List.replicate manager.workerBufs.length ⟨none, none⟩
        connectionPoolBuckets := manager.workerBufs.foldl mergeBuf manager.connectionPoolBuckets } := by
  rw [connectionBufCrawler, crawl_take manager (Nat.le_refl _), List.drop_length, List.take_length,
    List.append_nil]

/-! ## What is in the pool -/

/-- Some buffer has a key, and neither the list of its worker nor a later one does. -/
def LastBuffered (bufs : List WorkerBuf) (key : Bytes) : Prop :=
  ∃ (j : ℕ) (buf : WorkerBuf), bufs[j]? = some buf ∧ buf.Buffers key ∧ ¬ buf.Deletes key ∧
    ∀ (later : ℕ) (other : WorkerBuf), j < later → bufs[later]? = some other → ¬ other.Deletes key

theorem lastBuffered_snoc {bufs : List WorkerBuf} {last : WorkerBuf} {key : Bytes} :
    LastBuffered (bufs ++ [last]) key ↔
      ¬ last.Deletes key ∧ (last.Buffers key ∨ LastBuffered bufs key) := by
  constructor
  · rintro ⟨j, buf, found, buffers, kept, behind⟩
    rcases Nat.lt_trichotomy j bufs.length with inside | rfl | outside
    · rw [List.getElem?_append_left inside] at found
      refine ⟨behind bufs.length last inside (by simp), .inr ⟨j, buf, found, buffers, kept, ?_⟩⟩
      intro later other after present
      exact behind later other after
        (by rwa [List.getElem?_append_left (List.getElem?_eq_some_iff.mp present).1])
    · obtain rfl : last = buf := by simpa using found
      exact ⟨kept, .inl buffers⟩
    · rw [List.getElem?_eq_none (by simp only [List.length_append, List.length_singleton]; omega)] at found
      contradiction
  · rintro ⟨kept, buffers | ⟨j, buf, found, buffers, own, behind⟩⟩
    · refine ⟨bufs.length, last, by simp, buffers, kept, ?_⟩
      intro later other after present
      rw [List.getElem?_eq_none (by simp only [List.length_append, List.length_singleton]; omega)]
        at present
      contradiction
    · have inside := (List.getElem?_eq_some_iff.mp found).1
      refine ⟨j, buf, by rwa [List.getElem?_append_left inside], buffers, own, ?_⟩
      intro later other after present
      by_cases old : later < bufs.length
      · rw [List.getElem?_append_left old] at present
        exact behind later other after present
      · have bound := (List.getElem?_eq_some_iff.mp present).1
        rw [List.length_append, List.length_singleton] at bound
        obtain rfl : later = bufs.length := by omega
        obtain rfl : last = other := by simpa using present
        exact kept

/-- A key has a timer behind all buffers if one of them left it, or if none took it away. -/
theorem timerAt_merged_isSome (buckets : ℕ → Option TimerMap) (bufs : List WorkerBuf) (key : Bytes) :
    (timerAt (bufs.foldl mergeBuf buckets) key).isSome ↔
      LastBuffered bufs key ∨
        (timerAt buckets key).isSome ∧ ∀ buf ∈ bufs, ¬ buf.Deletes key := by
  induction bufs using List.reverseRecOn with
  | nil => simp [LastBuffered]
  | append_singleton bufs last ih =>
    have buffered : ((last.connectionBuf.getD ∅)[key]?).isSome ↔ last.Buffers key :=
      mem_iff_isSome_getElem?.symm
    rw [List.foldl_append, List.foldl_cons, List.foldl_nil, timerAt_mergeBuf, lastBuffered_snoc]
    by_cases deleted : last.Deletes key
    · simp [deleted]
    · rw [if_neg deleted, Option.isSome_or, Bool.or_eq_true, ih, buffered]
      simp only [List.mem_append, List.mem_singleton]
      grind

/-- A timer stays while its key is in no list. -/
theorem timerAt_merged_of_kept {buckets : ℕ → Option TimerMap} {bufs : List WorkerBuf} {key : Bytes}
    (kept : ∀ buf ∈ bufs, ¬ buf.Deletes key)
    (still : (timerAt buckets key).isSome ∨ ∀ buf ∈ bufs, ¬ buf.Buffers key) :
    timerAt (bufs.foldl mergeBuf buckets) key = timerAt buckets key := by
  induction bufs using List.reverseRecOn with
  | nil => rfl
  | append_singleton bufs last ih =>
    rw [List.foldl_append, List.foldl_cons, List.foldl_nil, timerAt_mergeBuf,
      if_neg (kept last (by simp)),
      ih (fun buf member => kept buf (List.mem_append_left _ member))
        (still.imp_right fun none buf member => none buf (List.mem_append_left _ member))]
    rcases still with present | unbuffered
    · obtain ⟨timer, found⟩ := Option.isSome_iff_exists.mp present
      rw [found, Option.some_or]
    · have absent : (last.connectionBuf.getD ∅)[key]? = none :=
        getElem?_eq_none (unbuffered last (by simp))
      rw [absent, Option.or_none]

/-- A call of the crawler empties all buffers and lists and leaves each key in its bucket. A key is
pooled behind it exactly if a buffer has it and neither the list of that worker nor a later one, or if
it was pooled and is in no list. The timers of keys in no list stay as they are. -/
theorem connectionBufCrawler_spec {manager : ConnectionTimerManager}
    (placed : Placed manager.connectionPoolBuckets) :
    ∃ crawled, manager.connectionBufCrawler = some crawled ∧
      crawled.workerBufs = List.replicate manager.workerBufs.length ⟨none, none⟩ ∧
      Placed crawled.connectionPoolBuckets ∧
      (∀ key, Pooled crawled.connectionPoolBuckets key ↔
        LastBuffered manager.workerBufs key ∨
          Pooled manager.connectionPoolBuckets key ∧
            ∀ buf ∈ manager.workerBufs, ¬ buf.Deletes key) ∧
      ∀ bucket key, (∀ buf ∈ manager.workerBufs, ¬ buf.Deletes key) →
        (Pooled manager.connectionPoolBuckets key ∨
          ∀ buf ∈ manager.workerBufs, ¬ buf.Buffers key) →
        entryAt crawled.connectionPoolBuckets bucket key =
          entryAt manager.connectionPoolBuckets bucket key := by
  have merged : Placed (manager.workerBufs.foldl mergeBuf manager.connectionPoolBuckets) :=
    placed_foldl placed_mergeBuf _ placed
  refine ⟨_, manager.connectionBufCrawler_eq, rfl, merged, fun key => ?_, fun bucket key kept still => ?_⟩
  · rw [merged.pooled_iff, placed.pooled_iff]
    exact timerAt_merged_isSome _ _ _
  · rw [placed.pooled_iff] at still
    rw [merged.entryAt_eq, placed.entryAt_eq, timerAt_merged_of_kept kept still]

/-- A connection of 10.0.0.1 that a worker has buffered. -/
def sampleEntry : Bytes × ConnectionTimer :=
  (generateTimerKey (inetNtoa (10, 0, 0, 1)) 5, ⟨130, 5, 0, 1, inetNtoa (10, 0, 0, 1)⟩)

/-- The first of two workers has a connection in its buffer, which the second one is to delete. -/
def sampleManager : ConnectionTimerManager :=
  { init 30 with
    workerBufs := [⟨some ((∅ : TimerMap).insertIfNew sampleEntry.1 sampleEntry.2), some []⟩,
      ⟨none, some [sampleEntry.1]⟩] }

/-- The key is in the list of a later worker, and so it does not get into the pool. -/
theorem connectionBufCrawler_spec_sample :
    ∃ crawled, sampleManager.connectionBufCrawler = some crawled ∧
      ¬ Pooled crawled.connectionPoolBuckets sampleEntry.1 := by
  have placed : Placed sampleManager.connectionPoolBuckets := fun _ _ present => by contradiction
  obtain ⟨crawled, success, _, _, pooled, _⟩ := connectionBufCrawler_spec placed
  refine ⟨crawled, success, fun present => ?_⟩
  rcases (pooled _).mp present with ⟨j, buf, found, buffers, _, behind⟩ | ⟨⟨_, old⟩, _⟩
  · match j, found with
    | 0, _ => exact behind 1 _ (by omega) rfl List.mem_cons_self
    | 1, found =>
      cases found
      exact not_mem_empty buffers
    | _ + 2, found => contradiction
  · contradiction

end ConnectionTimerManager

end LibEvRpc
