import CertOS.Agent.JobExecutor
import Mathlib.Data.List.TakeWhile

/-!
# The output of a job

The thread of a job reads what the job writes into a buffer of 1024 bytes, a chunk at a time,
and puts a NUL behind the chunk. It then makes a string of the buffer as if it held a text,
that is, of the bytes in front of the first NUL, and not of the bytes that were read. A job
that writes a NUL loses the rest of the chunk with it, in the result and in the log; a job that
does not loses nothing (`CertOS.JobExecutor.output_captured_iff`).
-/

namespace CertOS

namespace JobExecutor

/-! ### The loop -/

/-- What the loop works on. -/
structure OutputLoop where
  /-- `buffer`. -/
  buffer : List UInt8
  /-- `stdout_data`. -/
  stdoutData : List UInt8 := []
  /-- The calls of `on_log_chunk_`. -/
  logged : List (String × List UInt8) := []

/-- What `read` leaves in the buffer. -/
def fill (bytes buffer : List UInt8) : List UInt8 := bytes ++ buffer.drop bytes.length

/-- `std::string chunk(buffer)`: the bytes in front of the first NUL. -/
def chunkOf (buffer : List UInt8) : List UInt8 := buffer.takeWhile (· ≠ 0)

/-- One turn of the loop, for the bytes that `read` has returned. -/
def turn (onLogChunk : Bool) (jobId : String) (st : OutputLoop) (bytes : List UInt8) :
    OutputLoop :=
  let buffer := (fill bytes st.buffer).set bytes.length 0
  { buffer := buffer
    stdoutData := st.stdoutData ++ chunkOf buffer
    logged := if onLogChunk then st.logged ++ [(jobId, chunkOf buffer)] else st.logged }

/-- The loop, up to the end of the file. -/
def readLoop (onLogChunk : Bool) (jobId : String) (st : OutputLoop) (chunks : List (List UInt8)) :
    OutputLoop :=
  chunks.foldl (turn onLogChunk jobId) st

/-- **A way in which `read` splits a stream**: into chunks that are not empty, and leave room
for the NUL. -/
structure Splits (stream : List UInt8) (chunks : List (List UInt8)) : Prop where
  flatten : chunks.flatten = stream
  length : ∀ bytes ∈ chunks, 1 ≤ bytes.length ∧ bytes.length ≤ 1023

/-! ### What the loop keeps -/

section Loop

variable {onLogChunk : Bool} {jobId : String} {st : OutputLoop} {bytes stream : List UInt8}
  {chunks : List (List UInt8)}

theorem length_fill (h : bytes.length ≤ st.buffer.length) :
    (fill bytes st.buffer).length = st.buffer.length := by
  rw [fill, List.length_append, List.length_drop]
  omega

/-- The buffer with a NUL behind the bytes: what stood behind them does not matter. -/
theorem chunkOf_fill (h : bytes.length < st.buffer.length) :
    chunkOf ((fill bytes st.buffer).set bytes.length 0) = bytes.takeWhile (· ≠ 0) := by
  have hrest : st.buffer.drop bytes.length ≠ [] := by
    rw [List.ne_nil_iff_length_pos, List.length_drop]
    omega
  obtain ⟨b, rest, hb⟩ := List.exists_cons_of_ne_nil hrest
  have hset : (fill bytes st.buffer).set bytes.length 0 = bytes ++ 0 :: rest := by
    rw [fill, hb, List.set_append_right _ _ le_rfl, Nat.sub_self, List.set_cons_zero]
  rw [chunkOf, hset, List.takeWhile_append]
  split
  · rename_i hall
    rw [List.takeWhile_cons_of_neg (by decide), List.append_nil]
    exact ((List.takeWhile_prefix _).eq_of_length hall).symm
  · rfl

/-- **One turn** keeps the bytes of its chunk that stand in front of the first NUL. -/
theorem turn_eq (onLogChunk : Bool) (jobId : String) (h : bytes.length < st.buffer.length) :
    (turn onLogChunk jobId st bytes).buffer.length = st.buffer.length ∧
      (turn onLogChunk jobId st bytes).stdoutData =
        st.stdoutData ++ bytes.takeWhile (· ≠ 0) ∧
      (turn onLogChunk jobId st bytes).logged = if onLogChunk then
        st.logged ++ [(jobId, bytes.takeWhile (· ≠ 0))] else st.logged := by
  rw [turn, chunkOf_fill h]
  exact ⟨by rw [List.length_set, length_fill h.le], rfl, rfl⟩

/-- **The loop** keeps these bytes of every chunk. -/
theorem readLoop_eq (onLogChunk : Bool) (jobId : String) (hbuffer : st.buffer.length = 1024)
    (hchunks : ∀ bytes ∈ chunks, bytes.length ≤ 1023) :
    (readLoop onLogChunk jobId st chunks).stdoutData =
        st.stdoutData ++ JobExecutor.stdoutData chunks ∧
      ((readLoop onLogChunk jobId st chunks).logged.map Prod.snd).flatten =
        (st.logged.map Prod.snd).flatten ++
          if onLogChunk then JobExecutor.stdoutData chunks else [] := by
  induction chunks generalizing st with
  | nil =>
    have hnone : (if onLogChunk then JobExecutor.stdoutData [] else []) = [] := ite_self _
    rw [hnone, List.append_nil]
    exact ⟨(List.append_nil _).symm, rfl⟩
  | cons bytes chunks ih =>
    have hlt : bytes.length < st.buffer.length := by
      have := hchunks bytes List.mem_cons_self
      omega
    obtain ⟨hlen, hdata, hlog⟩ := turn_eq onLogChunk jobId hlt
    obtain ⟨hdata', hlog'⟩ := ih (hlen.trans hbuffer)
      fun bytes hb => hchunks bytes (List.mem_cons_of_mem _ hb)
    have hcons : JobExecutor.stdoutData (bytes :: chunks) =
        bytes.takeWhile (· ≠ 0) ++ JobExecutor.stdoutData chunks := List.flatMap_cons
    rw [readLoop, List.foldl_cons]
    refine ⟨?_, ?_⟩
    · rw [hcons, ← List.append_assoc, ← hdata]
      exact hdata'
    · refine hlog'.trans ?_
      rw [hlog, hcons]
      cases onLogChunk with
      | false => rfl
      | true => simp

/-- What is kept of some chunks has no NUL. -/
theorem zero_notMem_stdoutData : 0 ∉ JobExecutor.stdoutData chunks := by
  rw [JobExecutor.stdoutData, List.mem_flatMap]
  rintro ⟨bytes, -, hzero⟩
  exact absurd (List.mem_takeWhile_imp hzero) (by decide)

/-- All is kept just if there is no NUL. -/
theorem stdoutData_eq_flatten_iff :
    JobExecutor.stdoutData chunks = chunks.flatten ↔ 0 ∉ chunks.flatten := by
  constructor
  · intro h
    rw [← h]
    exact zero_notMem_stdoutData
  · intro h
    have hkeep : ∀ bytes ∈ chunks, bytes.takeWhile (· ≠ 0) = bytes := by
      intro bytes hbytes
      rw [List.takeWhile_eq_self_iff]
      intro b hb
      have hne : b ≠ 0 := by
        rintro rfl
        exact h (List.mem_flatten.mpr ⟨bytes, hbytes, hb⟩)
      exact decide_eq_true hne
    rw [JobExecutor.stdoutData, List.flatMap, List.map_congr_left hkeep, List.map_id']

/-! ### The law -/

/-- **The output is captured**: the result has the whole stream, and so has the log, if there
is one. -/
structure Captured (onLogChunk : Bool) (jobId : String) (st : OutputLoop) (p : ProcessEnd)
    (chunks : List (List UInt8)) (stream : List UInt8) : Prop where
  result : (jobResult jobId p.status (readLoop onLogChunk jobId st chunks).stdoutData).stdoutData =
    stream
  log : onLogChunk = true →
    ((readLoop onLogChunk jobId st chunks).logged.map Prod.snd).flatten = stream

theorem stdoutData_jobResult (jobId : String) (status : ℕ) (data : List UInt8) :
    (jobResult jobId status data).stdoutData = data := by
  rw [jobResult]
  split
  · rfl
  · split
    · rfl
    · rfl

/-- **The output is captured byte for byte**, whatever the buffer holds at first, however the
stream is split and however the process ends, if and only if there is no NUL in the stream. -/
theorem output_captured_iff (hbuffer : st.buffer.length = 1024) (hdata : st.stdoutData = [])
    (hlog : st.logged = []) (p : ProcessEnd) (hsplit : Splits stream chunks) :
    Captured onLogChunk jobId st p chunks stream ↔ 0 ∉ stream := by
  obtain ⟨rfl, hlen⟩ := hsplit
  obtain ⟨hresult, hchunks⟩ := readLoop_eq onLogChunk jobId hbuffer
    fun bytes hb => (hlen bytes hb).2
  rw [hdata, List.nil_append] at hresult
  rw [hlog, List.map_nil, List.flatten_nil, List.nil_append] at hchunks
  rw [← stdoutData_eq_flatten_iff]
  constructor
  · rintro ⟨h, -⟩
    rwa [stdoutData_jobResult, hresult] at h
  · intro h
    refine ⟨?_, fun hset => ?_⟩
    · rw [stdoutData_jobResult, hresult, h]
    · rw [hchunks, if_pos hset, h]

end Loop

/-- The loop before its first turn, with a buffer of zeros. -/
def freshLoop : OutputLoop where
  buffer := List.replicate 1024 0

/-- The law at work: a job that writes a line in two pieces. -/
theorem output_captured_hi :
    Captured true "job-1" freshLoop (.exited 0) [[104], [105, 10]] [104, 105, 10] := by
  have hsplit : Splits [104, 105, 10] [[104], [105, 10]] :=
    ⟨rfl, by decide⟩
  exact (output_captured_iff List.length_replicate rfl rfl (.exited 0) hsplit).mpr (by decide)

/-- **A NUL cuts the output short**: of the three bytes of a chunk with a NUL in its middle,
the result has the first. -/
theorem output_cut_short : Splits [104, 0, 105] [[104, 0, 105]] ∧
    (jobResult "job-1" (ProcessEnd.exited 0).status
      (readLoop true "job-1" freshLoop [[104, 0, 105]]).stdoutData).stdoutData = [104] ∧
    ¬ Captured true "job-1" freshLoop (.exited 0) [[104, 0, 105]] [104, 0, 105] := by
  have hkept : (jobResult "job-1" (ProcessEnd.exited 0).status
      (readLoop true "job-1" freshLoop [[104, 0, 105]]).stdoutData).stdoutData = [104] := by
    rw [stdoutData_jobResult, (readLoop_eq true "job-1" List.length_replicate (by decide)).1]
    rfl
  refine ⟨⟨rfl, by decide⟩, hkept, fun h => ?_⟩
  have hresult := h.result
  rw [hkept] at hresult
  exact absurd hresult (by decide)

end JobExecutor

end CertOS
