import Gateway.Agents.Isolation
import Gateway.Lib.Follow

/-!
# What a log stream sends (`stream_logs`)

Every two seconds the stream reads the last lines again and skips those it has sent. It tells lines
apart by replica and timestamp, not by what they say.

* `logLines_streamLogs`: the stream sends the first line of each replica and timestamp, in the order
  of the polls.
* `Tailed`: each poll returns of each replica a tail of its log so far, which starts no later than
  the previous one ended, or nothing.
* **`streamLogs_complete_iff`**: where polls reach back before a replica's first polled line only to
  timestamps already sent, each replica's lines from the first polled one on are sent, each once and
  in order, if and only if no two of them carry the same timestamp.
* **`streamLogs_drops_tied_line`**: of two lines with one timestamp the second is never sent.
-/

namespace Gateway

open Lib

/-- What a line is told apart by. -/
def AgentLog.key (e : AgentLog) : String × Instant := (e.replicaId, e.timestamp)

/-- The lines a poll goes through: none when it fails. -/
def polledLogs (d : ApiDeps) (w : World) (userId : UserId) (agentId : AgentId)
    (level : Option String) (reads : RuntimeReads) : List AgentLog :=
  (getLogs d reads w userId agentId level none 200).toOption.getD []

/-- The lines of the `log` events. -/
def logLines (events : List StreamEvent) : List AgentLog :=
  events.filterMap fun
    | .log entry => some entry
    | .metric _ => none
    | .heartbeat => none

theorem logLines_append (xs ys : List StreamEvent) :
    logLines (xs ++ ys) = logLines xs ++ logLines ys := List.filterMap_append ..

/-- The loop of a poll over its lines, whose body is `send`. -/
theorem logLines_foldl {send : List StreamEvent × List (String × Instant) → AgentLog →
      List StreamEvent × List (String × Instant)}
    (hsend : ∀ events seen e, send (events, seen) e =
      if e.key ∈ seen then (events, seen) else (events ++ [.log e], e.key :: seen))
    (logs : List AgentLog) (events : List StreamEvent) (seen : List (String × Instant)) :
    logLines (logs.foldl send (events, seen)).1 =
        logLines events ++ freshBy AgentLog.key seen logs ∧
      ∀ b, b ∈ (logs.foldl send (events, seen)).2 ↔ b ∈ logs.map AgentLog.key ++ seen := by
  induction logs generalizing events seen with
  | nil => exact ⟨(List.append_nil _).symm, fun b => Iff.rfl⟩
  | cons e logs ih =>
    by_cases he : e.key ∈ seen
    · obtain ⟨hlines, hseen⟩ := ih events seen
      rw [List.foldl_cons, hsend, if_pos he, freshBy_cons_of_mem he]
      refine ⟨hlines, fun b => (hseen b).trans ?_⟩
      simp only [List.map_cons, List.cons_append, List.mem_cons]
      constructor
      · exact Or.inr
      · rintro (rfl | hb)
        · exact List.mem_append_right _ he
        · exact hb
    · obtain ⟨hlines, hseen⟩ := ih (events ++ [.log e]) (e.key :: seen)
      rw [List.foldl_cons, hsend, if_neg he, freshBy_cons_of_not_mem he]
      refine ⟨hlines.trans ?_, fun b => (hseen b).trans ?_⟩
      · rw [logLines_append, List.append_assoc]
        rfl
      · simp only [List.map_cons, List.cons_append, List.mem_cons, List.mem_append]
        tauto

section Stream

variable (d : ApiDeps) (w : World) (userId : UserId) (agentId : AgentId) (level : Option String)

/-- **One turn of the stream** sends the lines it has not seen. -/
theorem logLines_pollLogs (seen : List (String × Instant)) (reads : RuntimeReads) :
    logLines (pollLogs d w userId agentId level seen reads).1 =
        freshBy AgentLog.key seen (polledLogs d w userId agentId level reads) ∧
      ∀ b, b ∈ (pollLogs d w userId agentId level seen reads).2 ↔
        b ∈ (polledLogs d w userId agentId level reads).map AgentLog.key ++ seen := by
  unfold pollLogs
  constructor
  · rw [logLines_append]
    exact (List.append_nil _).trans (logLines_foldl (by intro _ _ _; rfl) _ [] seen).1
  · exact (logLines_foldl (by intro _ _ _; rfl) _ [] seen).2

/-- The stream sends the first line of each replica and timestamp, over all polls. -/
theorem logLines_streamLogs (polls : List RuntimeReads) (seen : List (String × Instant)) :
    logLines (streamLogs d w userId agentId level seen polls) =
      freshBy AgentLog.key seen (polls.flatMap (polledLogs d w userId agentId level)) := by
  induction polls generalizing seen with
  | nil => rfl
  | cons reads polls ih =>
    obtain ⟨hlines, hseen⟩ := logLines_pollLogs d w userId agentId level seen reads
    rw [streamLogs, logLines_append, hlines, ih, List.flatMap_cons, freshBy_append,
      freshBy_congr hseen]

end Stream

/-! ## Growing logs -/

/-- The polls return tails of the growing `log` of each replica: `spans` are the positions they
start and end at, with nothing for a replica that a poll returns no lines of, as a failed one does.
-/
structure Tailed (polled : List (List AgentLog)) (log : String → List AgentLog)
    (spans : String → List Span) : Prop where
  returned : ∀ rep,
    polled.map (fun lines => lines.filter fun e => e.replicaId = rep) =
      (spans rep).map (slice (log rep))
  follows : ∀ rep, Along covers (Follows (log rep)) none (spans rep)

/-- The lines of a replica from the first polled one on, up to the last poll's end. -/
def fromFirstPolled (log : List AgentLog) (spans : List Span) : List AgentLog :=
  slice log (run covers none spans)

/-- **The log stream neither drops nor repeats lines iff their timestamps are distinct.** Where each
poll returns tails that follow on each other, and from before a replica's first polled line only
timestamps already sent, the lines sent are for each replica those from the first polled one on,
each once and in order, if and only if no two of them have the same timestamp. -/
theorem streamLogs_complete_iff {d : ApiDeps} {w : World} {userId : UserId} {agentId : AgentId}
    {level : Option String} {polls : List RuntimeReads} {log : String → List AgentLog}
    {spans : String → List Span}
    (htails : Tailed (polls.map (polledLogs d w userId agentId level)) log spans)
    (hback : ∀ rep, Along covers (ReachesSeen AgentLog.timestamp (log rep)) none (spans rep)) :
    (∀ rep, (logLines (streamLogs d w userId agentId level [] polls)).filter
        (fun e => e.replicaId = rep) = fromFirstPolled (log rep) (spans rep)) ↔
      ∀ rep, ((fromFirstPolled (log rep) (spans rep)).map AgentLog.timestamp).Nodup := by
  refine forall_congr' fun rep => ?_
  have hpolled : (polls.flatMap (polledLogs d w userId agentId level)).filter
      (fun e => e.replicaId = rep) = (spans rep).flatMap (slice (log rep)) := by
    rw [List.flatMap_def, List.flatMap_def, List.filter_flatten, htails.returned rep]
  have hsent : (logLines (streamLogs d w userId agentId level [] polls)).filter
      (fun e => e.replicaId = rep) =
        freshBy AgentLog.timestamp [] ((spans rep).flatMap (slice (log rep))) := by
    rw [logLines_streamLogs, ← hpolled]
    exact filter_freshBy AgentLog.key rep (fun b => by simp) _
  rw [hsent]
  exact freshBy_spans_iff (htails.follows rep) (hback rep)

/-! ## Lines with one timestamp -/

/-- A runtime whose `get_logs` returns these lines of one replica. -/
def RuntimeReads.tail (lines : List (String × String)) : RuntimeReads where
  getLogs _ _ _ _ := .ok (lines.map fun l => ⟨"r1", l.1, l.2⟩)
  stats _ _ := .ok none

/-- A runtime that does not answer. -/
def RuntimeReads.failing : RuntimeReads where
  getLogs _ _ _ _ := .error (.other "unavailable")
  stats _ _ := .error (.other "unavailable")

/-- The lines of that replica as they are sent, and no lines of any other. -/
def logOf (lines : List (String × String)) (rep : String) : List AgentLog :=
  if rep = "r1" then
    lines.map fun l => ⟨"a", "r1", readDockerTimestamp l.1, "INFO", l.2, "stdout"⟩
  else []

/-- The spans of that replica, and as many polls without lines of any other. -/
def spansOf (spans : List Span) (rep : String) : List Span :=
  if rep = "r1" then spans else spans.map fun _ => none

/-- The lines of a free account's agent polled from some runtimes. -/
def polledFrom (polls : List RuntimeReads) : List (List AgentLog) :=
  polls.map (polledLogs ApiDeps.transparent (World.withAgent freeAgent) freeUser.id "a" none)

/-- Polls without lines follow on each other. -/
theorem along_none {G : Span → Span → Prop} (hG : ∀ s, G s none) (spans : List Span) (s : Span) :
    Along covers G s (spans.map fun _ => none) := by
  induction spans generalizing s with
  | nil => exact trivial
  | cons _ spans ih => exact ⟨hG s, ih _⟩

theorem tailed_of_one_replica {polls : List RuntimeReads} {lines : List (String × String)}
    {spans : List Span} (hall : ∀ logs ∈ polledFrom polls, ∀ e ∈ logs, e.replicaId = "r1")
    (hpolled : polledFrom polls = spans.map (slice (logOf lines "r1")))
    (hfollow : Along covers (Follows (logOf lines "r1")) none spans) :
    Tailed (polledFrom polls) (logOf lines) (spansOf spans) := by
  constructor
  · intro rep
    by_cases hrep : rep = "r1"
    · subst hrep
      have hself : (polledFrom polls).map (fun logs => logs.filter fun e => e.replicaId = "r1") =
          polledFrom polls := by
        conv_rhs => rw [← List.map_id (polledFrom polls)]
        refine List.map_congr_left fun logs hlogs => List.filter_eq_self.mpr fun e he => ?_
        exact decide_eq_true (hall logs hlogs e he)
      rw [hself, hpolled, spansOf, if_pos rfl]
    · have hnone : (polledFrom polls).map (fun logs => logs.filter fun e => e.replicaId = rep) =
          (polledFrom polls).map fun _ => [] := by
        refine List.map_congr_left fun logs hlogs => List.filter_eq_nil_iff.mpr fun e he => ?_
        rw [hall logs hlogs e he]
        simpa using Ne.symm hrep
      rw [hnone, hpolled, spansOf, if_neg hrep, List.map_map, List.map_map]
      rfl
  · intro rep
    by_cases hrep : rep = "r1"
    · subst hrep
      rw [spansOf, if_pos rfl]
      exact hfollow
    · rw [spansOf, if_neg hrep]
      exact along_none (fun _ => trivial) spans none

/-- Three lines of one second. -/
def threeLines : List (String × String) :=
  [("2026-01-01T00:00:00.100000000Z", "one"), ("2026-01-01T00:00:00.200000000Z", "two"),
    ("2026-01-01T00:00:00.300000000Z", "three")]

/-- Three polls: two lines, a failure, and the second line again with a third. -/
def overlappingPolls : List RuntimeReads :=
  [.tail (threeLines.take 2), .failing, .tail (threeLines.drop 1)]

/-- The three lines are sent, each once. -/
theorem streamLogs_complete_three_lines :
    (logLines (streamLogs ApiDeps.transparent (World.withAgent freeAgent) freeUser.id "a" none []
      overlappingPolls)).filter (fun e => e.replicaId = "r1") = logOf threeLines "r1" := by
  have htails : Tailed (polledFrom overlappingPolls) (logOf threeLines)
      (spansOf [some (0, 2), none, some (1, 3)]) := by
    refine tailed_of_one_replica (by decide +kernel) (by decide +kernel) ?_
    simp [Along, Follows, covers, logOf, threeLines]
  refine (streamLogs_complete_iff htails fun rep => ?_).mpr (fun rep => ?_) "r1"
  · by_cases hrep : rep = "r1"
    · subst hrep
      simp [spansOf, Along, ReachesSeen, covers]
    · rw [spansOf, if_neg hrep]
      exact along_none (fun s => by cases s <;> exact trivial) _ none
  · by_cases hrep : rep = "r1"
    · subst hrep
      decide +kernel
    · unfold fromFirstPolled logOf
      rw [if_neg hrep]
      cases run covers none (spansOf [some (0, 2), none, some (1, 3)] rep) <;> simp [slice]

/-- Two lines of one microsecond. -/
def tiedLines : List (String × String) :=
  [("2026-01-01T00:00:00.000001100Z", "one"), ("2026-01-01T00:00:00.000001200Z", "two")]

/-- **Of two lines with one timestamp the second is never sent**, though one poll returns both. -/
theorem streamLogs_drops_tied_line :
    Tailed (polledFrom [.tail tiedLines]) (logOf tiedLines) (spansOf [some (0, 2)]) ∧
      (logLines (streamLogs ApiDeps.transparent (World.withAgent freeAgent) freeUser.id "a" none []
        [.tail tiedLines])).filter (fun e => e.replicaId = "r1") ≠
          fromFirstPolled (logOf tiedLines "r1") [some (0, 2)] := by
  refine ⟨tailed_of_one_replica (by decide +kernel) (by decide +kernel) ?_, by decide +kernel⟩
  simp [Along, Follows, logOf, tiedLines]

end Gateway
