import Mathlib.Data.List.Chain
import RungLogic.Runner.Rehearsal

/-!
What a runner does to its surroundings. All that it asks of them is written down while it runs, which changes
nothing of the run. One turn adds a look at the clock and a wait, or a scan between the two, or a scan that
fails and nothing after it; from these three the order of scans, stops and waits follows for a whole run.
-/

set_option autoImplicit false
set_option relaxedAutoImplicit false

namespace RungLogic

/-- What a runner asks of its surroundings, with the answer. -/
inductive Act where
  | read (now : Float)
  | scan (ended : ScanEnd)
  | wait (stops : Bool)

namespace Act

def isScan : Act → Bool
  | scan _ => true
  | _ => false

def failure? : Act → Option Error
  | scan ended => ended.failure
  | _ => none

/-- Whether the runner is told to stop in its course; a failure tells it, too. -/
def stops : Act → Bool
  | read _ => false
  | scan ended => ended.failure.isSome || ended.stops
  | wait stops => stops

def completes (a : Act) : Bool := a.isScan && a.failure?.isNone

def notice? (a : Act) : Option Notice := a.failure?.map fun fault => .runnerStopped fault.message

@[simp] theorem isScan_read (now : Float) : (read now).isScan = false := rfl
@[simp] theorem isScan_scan (ended : ScanEnd) : (scan ended).isScan = true := rfl
@[simp] theorem isScan_wait (stops : Bool) : (wait stops).isScan = false := rfl
@[simp] theorem failure?_read (now : Float) : (read now).failure? = none := rfl
@[simp] theorem failure?_scan (ended : ScanEnd) : (scan ended).failure? = ended.failure := rfl
@[simp] theorem failure?_wait (stops : Bool) : (wait stops).failure? = none := rfl
@[simp] theorem stops_read (now : Float) : (read now).stops = false := rfl
@[simp] theorem stops_scan (ended : ScanEnd) :
    (scan ended).stops = (ended.failure.isSome || ended.stops) := rfl
@[simp] theorem stops_wait (stops : Bool) : (wait stops).stops = stops := rfl

private theorem failure?_of_not_stops {a : Act} (h : a.stops = false) : a.failure? = none := by
  cases a with
  | scan ended => simpa [failure?, stops] using (Bool.or_eq_false_iff.mp h).1
  | _ => rfl

private theorem filterMap_notice? {as : List Act} (sound : ∀ a ∈ as, a.failure? = none) :
    as.filterMap notice? = [] := by
  rw [List.filterMap_eq_nil_iff]
  intro a ha
  rw [notice?, sound a ha, Option.map_none]

end Act

/-- The surroundings with a record of what is asked of them, in order. -/
def RunnerSurroundings.recorded {σ : Type} (s : RunnerSurroundings σ) :
    RunnerSurroundings (σ × List Act) where
  now w := ((s.now w.1).1, (s.now w.1).2, w.2 ++ [.read (s.now w.1).1])
  scan w := ((s.scan w.1).1, (s.scan w.1).2, w.2 ++ [.scan (s.scan w.1).1])
  wait w := ((s.wait w.1).1, (s.wait w.1).2, w.2 ++ [.wait (s.wait w.1).1])

namespace Runner

variable {σ : Type} {s : RunnerSurroundings σ} {interval : Float} {r r' : Runner (σ × List Act)}

/-- The runner without the record. -/
def plain (r : Runner (σ × List Act)) : Runner σ := { r with world := r.world.1 }

def acts (r : Runner (σ × List Act)) : List Act := r.world.2

@[simp]
theorem acts_mk (world : σ) (as : List Act) (stopped : Bool) (nextScan : Float) (cycles : Nat)
    (notices : List Notice) : acts ⟨(world, as), stopped, nextScan, cycles, notices⟩ = as := rfl

private theorem turn_recorded (s : RunnerSurroundings σ) (interval : Float) (r : Runner (σ × List Act)) :
    (r.turn s.recorded interval).map plain = r.plain.turn s interval := by
  rcases stopped : r.stopped with _ | _
  · by_cases due : (s.now r.world.1).1 ≥ r.nextScan
    · rcases failed : (s.scan (s.now r.world.1).2).1.failure with _ | fault
      · simp [turn, stopped, plain, RunnerSurroundings.recorded, due, scanAt, failed, rest]
      · simp [turn, stopped, plain, RunnerSurroundings.recorded, due, scanAt, failed]
    · simp [turn, stopped, plain, RunnerSurroundings.recorded, due, rest]
  · have done : r.plain.stopped = true := stopped
    simp [turn, stopped, done]

private theorem run_recorded (s : RunnerSurroundings σ) (interval : Float) (n : Nat)
    (r : Runner (σ × List Act)) :
    (r.run s.recorded interval n).plain = r.plain.run s interval n := by
  induction n generalizing r with
  | zero => rfl
  | succ n ih =>
    have turned := turn_recorded s interval r
    rcases h : r.turn s.recorded interval with _ | next
    · rw [h] at turned
      rw [run, h, run, ← turned]
      rfl
    · rw [h] at turned
      rw [run, h, run, ← turned]
      exact ih next

/-- What one turn does. It looks at the clock and waits; between the two it scans when a scan is due, and when
the scan fails it does not wait. -/
inductive Turned (interval : Float) (r : Runner (σ × List Act)) : Runner (σ × List Act) → Prop
  | idle {world : σ} {now : Float} {stops : Bool} : ¬ r.nextScan ≤ now →
      Turned interval r
        { r with world := (world, r.acts ++ [.read now, .wait stops]), stopped := stops }
  | scanned {world : σ} {now : Float} {ended : ScanEnd} {stops : Bool} : r.nextScan ≤ now →
      ended.failure = none →
      Turned interval r
        { world := (world, r.acts ++ [.read now, .scan ended, .wait stops])
          stopped := ended.stops || stops
          nextScan := now + interval
          cycles := r.cycles + 1
          notices := r.notices }
  | failed {world : σ} {now : Float} {ended : ScanEnd} {fault : Error} : r.nextScan ≤ now →
      ended.failure = some fault →
      Turned interval r
        { r with
          world := (world, r.acts ++ [.read now, .scan ended])
          stopped := true
          notices := r.notices ++ [.runnerStopped fault.message] }

private theorem turned_of_turn (h : r.turn s.recorded interval = some r') :
    r.stopped = false ∧ Turned interval r r' := by
  rcases stopped : r.stopped with _ | _
  · refine ⟨rfl, ?_⟩
    rcases read : s.now r.world.1 with ⟨now, looked⟩
    simp only [turn, stopped, Bool.false_eq_true, if_false, RunnerSurroundings.recorded, read,
      ge_iff_le] at h
    by_cases due : r.nextScan ≤ now
    · rw [if_pos due] at h
      rcases scan : s.scan looked with ⟨ended, scanned⟩
      rcases failed : ended.failure with _ | fault
      · rcases wait : s.wait scanned with ⟨stops, waited⟩
        simp only [scanAt, scan, failed, rest, wait, Bool.false_or, List.append_assoc,
          List.cons_append, List.nil_append] at h
        cases h
        exact .scanned due failed
      · simp only [scanAt, scan, failed, List.append_assoc, List.cons_append, List.nil_append] at h
        cases h
        exact .failed due failed
    · rw [if_neg due] at h
      rcases wait : s.wait looked with ⟨stops, waited⟩
      simp only [rest, wait, Bool.false_or, List.append_assoc, List.cons_append, List.nil_append] at h
      cases h
      exact .idle due
  · rw [turn, stopped, if_pos rfl] at h
    cases h

/-- The looks at the clock that are followed by a scan. -/
def scanTimes : List Act → List Float
  | .read now :: .scan _ :: later => now :: scanTimes later
  | _ :: later => scanTimes later
  | [] => []

private theorem scanTimes_append (before : List Act) (now : Float) (later : List Act) :
    scanTimes (before ++ .read now :: later) = scanTimes before ++ scanTimes (.read now :: later) := by
  fun_induction scanTimes before with
  | case1 time ended before ih => simp [scanTimes, ih]
  | case2 a before other ih =>
    rw [List.cons_append, ← ih]
    rcases before with _ | ⟨b, before⟩
    · cases a <;> rfl
    · cases b with
      | scan ended =>
        cases a with
        | read time => exact absurd rfl (other time ended before rfl)
        | scan => rfl
        | wait => rfl
      | read => cases a <;> rfl
      | wait => cases a <;> rfl
  | case3 => rfl

private theorem scanTimes_of_no_scan {as : List Act} (none : ∀ a ∈ as, a.isScan = false) :
    scanTimes as = [] := by
  fun_induction scanTimes as with
  | case1 time ended later ih => cases none (.scan ended) (by simp)
  | case2 a later other ih => exact ih fun b hb => none b (List.mem_cons_of_mem a hb)
  | case3 => rfl

/-- A scan comes right after a look at the clock. -/
def Looks (a b : Act) : Prop := b.isScan = true → ∃ now, a = .read now

private theorem isChain_looks_append {a : Act} {before : List Act} (looks : (a :: before).IsChain Looks)
    (now : Float) (later : List Act) :
    (a :: (before ++ .read now :: later)).IsChain Looks ↔ (Act.read now :: later).IsChain Looks := by
  rw [← List.cons_append, List.isChain_append]
  simp [looks, Looks]

/-- What a run keeps, told to stop beforehand or not. -/
structure Orderly (interval : Float) (first : Bool) (r : Runner (σ × List Act)) : Prop where
  /-- The flag is up when something has told it to stop, -/
  flag : r.stopped = (first || r.acts.any Act.stops)
  /-- and then there is no scan after that. -/
  obeys : first = true → ∀ a ∈ r.acts, a.isScan = false
  heeds : r.acts.Pairwise fun a b => a.stops = true → b.isScan = false
  /-- A failure is the end, -/
  ends : r.acts.Pairwise fun a _ => a.failure? = none
  /-- and it is reported. -/
  reported : r.notices = r.acts.filterMap Act.notice?
  counted : r.cycles = r.acts.countP Act.completes
  /-- Not even the first act is a scan. -/
  looks : (Act.wait false :: r.acts).IsChain Looks
  timed : (scanTimes r.acts).IsChain fun a b => a + interval ≤ b
  /-- While nothing has failed, the next scan is due when the interval has passed. -/
  due : r.stopped = false → ∀ time ∈ (scanTimes r.acts).getLast?, r.nextScan = time + interval

namespace Orderly

variable {first : Bool}

private theorem start (s : RunnerSurroundings σ) (world : σ) (interval : Float) (first : Bool) :
    Orderly interval first (start s.recorded (world, []) first) where
  flag := by simp [Runner.start, RunnerSurroundings.recorded]
  obeys := by simp [Runner.start, RunnerSurroundings.recorded]
  heeds := by simp [Runner.start, RunnerSurroundings.recorded]
  ends := by simp [Runner.start, RunnerSurroundings.recorded]
  reported := rfl
  counted := rfl
  looks := by simp [Runner.start, RunnerSurroundings.recorded, Looks]
  timed := .nil
  due := by simp [Runner.start, RunnerSurroundings.recorded, scanTimes]

private theorem not_stops (h : Orderly interval first r) (on : r.stopped = false) :
    first = false ∧ ∀ a ∈ r.acts, a.stops = false := by
  have flag := h.flag
  rw [on] at flag
  simpa using flag.symm

private theorem not_failed (h : Orderly interval first r) (on : r.stopped = false) :
    ∀ a ∈ r.acts, a.failure? = none := fun a ha =>
  Act.failure?_of_not_stops ((h.not_stops on).2 a ha)

private theorem timed_scan (h : Orderly interval first r) (on : r.stopped = false) {now : Float}
    (ripe : r.nextScan ≤ now) (ended : ScanEnd) (later : List Act)
    (none : ∀ a ∈ later, a.isScan = false) :
    (scanTimes (r.acts ++ .read now :: .scan ended :: later)).IsChain fun a b => a + interval ≤ b := by
  rw [scanTimes_append, scanTimes, scanTimes_of_no_scan none, List.isChain_append]
  refine ⟨h.timed, .singleton now, fun time last b hb => ?_⟩
  obtain rfl : now = b := by simpa using hb
  rw [← h.due on time last]
  exact ripe

/-- A turn keeps the order. -/
private theorem turned (h : Orderly interval first r) (on : r.stopped = false) (t : Turned interval r r') :
    Orderly interval first r' := by
  obtain ⟨rfl, quiet⟩ := h.not_stops on
  have sound := h.not_failed on
  have any : r.acts.any Act.stops = false := by simpa using quiet
  have due := h.due on
  cases t with
  | idle early =>
    exact {
      flag := by simp [any]
      obeys := by simp
      heeds := by simp [List.pairwise_append, h.heeds]
      ends := by simp +contextual [List.pairwise_append, h.ends, sound]
      reported := by simp [h.reported, Act.notice?]
      counted := by simp [h.counted, Act.completes]
      looks := by simp [isChain_looks_append h.looks, Looks]
      timed := by simp [scanTimes_append, h.timed, scanTimes]
      due := by simpa [scanTimes_append, scanTimes] using fun _ => due }
  | scanned ripe fine =>
    exact {
      flag := by simp [any, fine]
      obeys := by simp
      heeds := by simp +contextual [List.pairwise_append, h.heeds, quiet]
      ends := by simp +contextual [List.pairwise_append, h.ends, sound, fine]
      reported := by simp [h.reported, Act.notice?, fine]
      counted := by simp [h.counted, Act.completes, fine]
      looks := by simp [isChain_looks_append h.looks, Looks]
      timed := h.timed_scan on ripe _ _ (by simp)
      due := by simp [scanTimes_append, scanTimes] }
  | failed ripe failed =>
    exact {
      flag := by simp [failed]
      obeys := by simp
      heeds := by simp +contextual [List.pairwise_append, h.heeds, quiet]
      ends := by simp +contextual [List.pairwise_append, h.ends, sound]
      reported := by simp [h.reported, List.filterMap_cons, Act.notice?, failed]
      counted := by simp [h.counted, Act.completes, failed]
      looks := by simp [isChain_looks_append h.looks, Looks]
      timed := h.timed_scan on ripe _ _ (by simp)
      due := by simp }

/-- And so does a run. -/
private theorem run (h : Orderly interval first r) (s : RunnerSurroundings σ) (n : Nat) :
    Orderly interval first (r.run s.recorded interval n) := by
  induction n generalizing r with
  | zero => exact h
  | succ n ih =>
    rcases taken : r.turn s.recorded interval with _ | next
    · rwa [Runner.run, taken]
    · rw [Runner.run, taken]
      obtain ⟨on, t⟩ := turned_of_turn taken
      exact ih (h.turned on t)

private theorem before_scan (h : Orderly interval first r) {before after : List Act} {ended : ScanEnd}
    (split : r.acts = before ++ .scan ended :: after) :
    first = false ∧ ∀ a ∈ before, a.stops = false := by
  have heeds := h.heeds
  rw [split, List.pairwise_append] at heeds
  refine ⟨?_, fun a ha => ?_⟩
  · cases first with
    | false => rfl
    | true => cases h.obeys rfl (.scan ended) (by simp [split])
  · simpa using heeds.2.2 a ha (.scan ended) (by simp)

private theorem looks_before_scan (h : Orderly interval first r) {before after : List Act} {ended : ScanEnd}
    (split : r.acts = before ++ .scan ended :: after) : ∃ earlier now, before = earlier ++ [.read now] := by
  have looks := h.looks
  rw [split] at looks
  rcases List.eq_nil_or_concat before with rfl | ⟨earlier, a, rfl⟩
  · simp [Looks] at looks
  · rw [List.concat_eq_append, ← List.cons_append, List.isChain_append] at looks
    obtain ⟨now, rfl⟩ := looks.2.2 a (by simp [List.getLast?_cons]) (.scan ended) (by simp) rfl
    exact ⟨earlier, now, by simp⟩

private theorem after_failure (h : Orderly interval first r) {before after : List Act} {ended : ScanEnd}
    {fault : Error} (split : r.acts = before ++ .scan ended :: after)
    (failed : ended.failure = some fault) :
    after = [] ∧ r.stopped = true ∧ r.notices = [.runnerStopped fault.message] := by
  have ends := h.ends
  rw [split, List.pairwise_append, List.pairwise_cons] at ends
  obtain rfl : after = [] := by
    rcases after with _ | ⟨a, after⟩
    · rfl
    · have fine := ends.2.1.1 a (by simp)
      simp [failed] at fine
  refine ⟨rfl, ?_, ?_⟩
  · simp [h.flag, split, failed]
  · have sound : ∀ a ∈ before, a.failure? = none := fun a ha =>
      ends.2.2 a ha (.scan ended) (by simp)
    simp [h.reported, split, Act.filterMap_notice? sound, Act.notice?, failed]

private theorem one_failure (h : Orderly interval first r) :
    r.acts.countP (fun a => a.failure?.isSome) ≤ 1 := by
  have ends := h.ends.filter fun a => a.failure?.isSome
  rw [List.countP_eq_length_filter]
  rcases failures : r.acts.filter fun a => a.failure?.isSome with _ | ⟨a, _ | ⟨b, later⟩⟩
  · rw [failures, List.length_nil]
    exact Nat.zero_le 1
  · rw [failures, List.length_singleton]
  · have failed : a ∈ r.acts.filter fun a => a.failure?.isSome := by simp [failures]
    rw [failures, List.pairwise_cons] at ends
    have fine := ends.1 b (by simp)
    simp [fine] at failed

/-- Between two scans in succession the interval passes. -/
private theorem apart (h : Orderly interval first r) {before between after : List Act} {a b : Float}
    {ended ended' : ScanEnd}
    (split : r.acts =
      before ++ .read a :: .scan ended :: (between ++ .read b :: .scan ended' :: after))
    (none : ∀ act ∈ between, act.isScan = false) : a + interval ≤ b := by
  have timed := h.timed
  rw [split, scanTimes_append, scanTimes, scanTimes_append, scanTimes_of_no_scan none, scanTimes,
    List.isChain_append] at timed
  exact (List.isChain_cons_cons.mp timed.2.1).1

end Orderly

/-- What a runner does, told to stop beforehand or not, and whatever its surroundings do. It scans only while
nothing has told it to stop; it counts the scans that end well; a scan that fails is the last thing that it
does, and is reported; and between the looks at the clock that make it scan the interval passes. -/
theorem scans_in_order (s : RunnerSurroundings σ) (world : σ) (interval : Float) (first : Bool)
    (n : Nat) :
    let r := (start s.recorded (world, []) first).run s.recorded interval n
    r.plain = (start s world first).run s interval n ∧
    (r.stopped = true ↔ first = true ∨ ∃ a ∈ r.acts, a.stops = true) ∧
    (∀ before ended after, r.acts = before ++ .scan ended :: after →
      (first = false ∧ ∀ a ∈ before, a.stops = false) ∧
      ∃ earlier now, before = earlier ++ [.read now]) ∧
    r.cycles = r.acts.countP Act.completes ∧
    r.acts.countP (fun a => a.failure?.isSome) ≤ 1 ∧
    ((∀ a ∈ r.acts, a.failure? = none) → r.notices = []) ∧
    (∀ before ended fault after, r.acts = before ++ .scan ended :: after →
      ended.failure = some fault →
      after = [] ∧ r.stopped = true ∧ r.notices = [.runnerStopped fault.message]) ∧
    (∀ before a ended between b ended' after,
      r.acts = before ++ .read a :: .scan ended :: (between ++ .read b :: .scan ended' :: after) →
      (∀ act ∈ between, act.isScan = false) → a + interval ≤ b) := by
  intro r
  have order : Orderly interval first r := (Orderly.start s world interval first).run s n
  refine ⟨run_recorded s interval n _, ?_, fun _ _ _ split => ?_, order.counted, order.one_failure,
    fun sound => ?_, fun _ _ _ _ => order.after_failure, fun _ _ _ _ _ _ _ => order.apart⟩
  · simp [order.flag]
  · exact ⟨order.before_scan split, order.looks_before_scan split⟩
  · rw [order.reported, Act.filterMap_notice? sound]

def secondScanFailing : Script :=
  { scanTakes := 0.0, waitTakes := 0.25, maxWaits := 9, failAt := some 2 }

/-- Of two scans half a second apart the second fails, and nothing comes after it. -/
theorem second_scan_fails :
    let r := (start secondScanFailing.surroundings.recorded ({}, []) false).run
      secondScanFailing.surroundings.recorded 0.5 9
    r.acts = .read 0.0 :: .read 0.0 :: .scan {} ::
      ([.wait false, .read 0.25, .wait false] ++ [.read 0.5, .scan { failure := some .scanFailed }]) ∧
    r.cycles = 1 ∧ r.stopped = true ∧ r.notices = [.runnerStopped Error.scanFailed.message] ∧
    (0.0 + 0.5 : Float) ≤ 0.5 := by
  intro r
  have acts : r.acts = .read 0.0 :: .read 0.0 :: .scan {} ::
      ([.wait false, .read 0.25, .wait false] ++
        [.read 0.5, .scan { failure := some .scanFailed }]) := rfl
  obtain ⟨-, -, -, cycles, -, -, failure, apart⟩ :=
    scans_in_order secondScanFailing.surroundings {} 0.5 false 9
  obtain ⟨-, stopped, notices⟩ := failure
    [.read 0.0, .read 0.0, .scan {}, .wait false, .read 0.25, .wait false, .read 0.5] _ .scanFailed []
    acts rfl
  exact ⟨acts, cycles.trans (congrArg (List.countP Act.completes) acts), stopped, notices,
    apart [.read 0.0] 0.0 {} [.wait false, .read 0.25, .wait false] 0.5 _ [] acts (by simp)⟩

end Runner

end RungLogic
