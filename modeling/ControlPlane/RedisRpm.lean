import ControlPlane.RedisKeys
import ControlPlane.RedisSlots

/-!
# The RPM counter, command by command

`enforce_rpm` of one principal as its clock reading and its Redis commands,
any number of calls interleaved. The counter of a minute lives sixty seconds
from its first `EXPIRE`, which is as long as the minute, while a call may
increment it any time after it read the clock. An increment that comes late
finds the key gone and starts it again at one, and everything counted before
is forgotten.

`rpm_cap_iff` counts by lives of the key: a life that saw `n` increments let
`min n limit` calls through. So the cap of a minute holds exactly when the
key lived once, or there were too few calls to matter, or nobody is let
through at all.
-/

namespace ControlPlane

open Lib

/-- What a call does next, or how it ended. -/
inductive RpmTask
  | readClock
  | incr (minute : ℤ)
  | expire (minute count : ℤ)
  | passed (minute : ℤ)
  | refused (minute : ℤ)
deriving DecidableEq, Repr

section Commands

variable (principal : AgentPrincipal)

/-- The comparison that closes the call. -/
def rpmAnswer (minute count : ℤ) : RpmTask :=
  if principal.rateLimitRpm < count then .refused minute else .passed minute

/-- One command of `enforce_rpm`, or the reading of its clock. -/
def advanceRpm (now : ℚ) (r : Redis) : RpmTask → Option (Redis × RpmTask)
  | .readClock => some (r, .incr (minuteKey now))
  | .incr minute =>
    let counted := r.incr now (rpmKey principal.quotaKey minute)
    some (counted.1, if counted.2 = 1 then .expire minute counted.2
      else rpmAnswer principal minute counted.2)
  | .expire minute count =>
    some (r.expireCounter now (rpmKey principal.quotaKey minute) 60,
      rpmAnswer principal minute count)
  | .passed _ => none
  | .refused _ => none

/-- Calls of `enforce_rpm` side by side. -/
def rpmCommands : System RedisServer RpmTask ℚ where
  advance now w task :=
    if w.now ≤ now then
      (advanceRpm principal now w.redis task).map fun next => (⟨next.1, now⟩, next.2)
    else none

/-- How the call ends, given its minute. -/
def RpmTask.ofReply (minute : ℤ) : Except ServiceError Unit → RpmTask
  | .ok _ => .passed minute
  | .error _ => .refused minute

/-- The commands of one call together are the call. -/
theorem solo_rpm (now : ℚ) (r : Redis) :
    (rpmCommands principal).solo ⟨r, now⟩ .readClock (List.replicate 3 now)
      = (⟨(RedisQuota.enforceRpm now principal r).1, now⟩,
        .ofReply (minuteKey now) (RedisQuota.enforceRpm now principal r).2) := by
  unfold RedisQuota.enforceRpm
  dsimp only
  by_cases hone : (r.incr now (rpmKey principal.quotaKey (minuteKey now))).2 = 1
  · by_cases hover : principal.rateLimitRpm < 1
    · simp [System.solo, rpmCommands, advanceRpm, rpmAnswer, List.replicate, hone, hover,
        RpmTask.ofReply]
    · simp [System.solo, rpmCommands, advanceRpm, rpmAnswer, List.replicate, hone, hover,
        RpmTask.ofReply]
  · by_cases hover : principal.rateLimitRpm
        < (r.incr now (rpmKey principal.quotaKey (minuteKey now))).2
    · simp [System.solo, rpmCommands, advanceRpm, rpmAnswer, List.replicate, hone, hover,
        RpmTask.ofReply]
    · simp [System.solo, rpmCommands, advanceRpm, rpmAnswer, List.replicate, hone, hover,
        RpmTask.ofReply]

end Commands

/-! ## The lives of a counter -/

section Lives

variable (principal : AgentPrincipal) (minute : ℤ)

/-- What the counter of the minute stands at, lapsed or not. -/
def counterValue (w : RedisServer) : Option ℤ :=
  (w.redis.counters (rpmKey principal.quotaKey minute)).map (·.value)

/-- The call has incremented the counter. -/
def RpmTask.Counted : RpmTask → Bool
  | .expire m _ => m = minute
  | .passed m => m = minute
  | .refused m => m = minute
  | _ => false

/-- The call has been let through, or will be. -/
def RpmTask.Granted : RpmTask → Bool
  | .expire m count => m = minute ∧ count ≤ principal.rateLimitRpm
  | .passed m => m = minute
  | _ => false

/-- How many of `n` increments in one life are let through. -/
def letThrough (limit n : ℤ) : ℤ :=
  min n (max limit 0)

/-- The increments of each life the key has had, the last one first. -/
structure Lives (c : Conf RedisServer RpmTask) (lives : List ℤ) : Prop where
  last : counterValue principal minute c.world = lives.head?
  pos : ∀ n ∈ lives, 1 ≤ n
  counted : (c.tasks.countP (RpmTask.Counted minute) : ℤ) = lives.sum
  granted : (c.tasks.countP (RpmTask.Granted principal minute) : ℤ)
    = (lives.map (letThrough principal.rateLimitRpm)).sum

/-- The step increments a counter that has reached its deadline. -/
def Late (c : Conf RedisServer RpmTask) : Act RpmTask ℚ → Prop
  | .start _ => False
  | .run i now => c.tasks[i]? = some (.incr minute)
    ∧ ∃ e, c.world.redis.counters (rpmKey principal.quotaKey minute) = some e ∧ ¬e.Live now

variable {principal} {minute}

/-- The counter is the count `INCR` gave. -/
theorem counterValue_incr_self (now : ℚ) (w : RedisServer) :
    counterValue principal minute
        ⟨(w.redis.incr now (rpmKey principal.quotaKey minute)).1, now⟩
      = some (w.redis.incr now (rpmKey principal.quotaKey minute)).2 := by
  unfold counterValue Redis.incr
  dsimp only
  rw [Expiring.set_self]
  rfl

/-- Another minute's counter stays. -/
theorem counterValue_incr_of_ne {minute' : ℤ} (hne : minute ≠ minute') (now : ℚ)
    (w : RedisServer) :
    counterValue principal minute
        ⟨(w.redis.incr now (rpmKey principal.quotaKey minute')).1, now⟩
      = counterValue principal minute w := by
  unfold counterValue Redis.incr
  dsimp only
  rw [Expiring.set_of_ne fun heq => hne (rpmKey_inj.mp heq).2]

/-- `EXPIRE` changes no count. -/
theorem counterValue_expire (key : String) (now seconds : ℚ) (w : RedisServer) :
    counterValue principal minute ⟨w.redis.expireCounter now key seconds, now⟩
      = counterValue principal minute w := by
  unfold counterValue Redis.expireCounter
  dsimp only
  by_cases hkey : rpmKey principal.quotaKey minute = key
  · subst hkey
    cases hlive : w.redis.counters.live now (rpmKey principal.quotaKey minute) with
    | none => rw [Expiring.expire_of_dead hlive]
    | some e =>
      rw [Expiring.expire_self hlive, (Expiring.live_eq_some.mp hlive).1]
      rfl
  · rw [Expiring.expire_of_ne hkey]

/-- An answered call has been counted in its minute. -/
theorem counted_rpmAnswer (m count : ℤ) :
    (rpmAnswer principal m count).Counted minute = decide (m = minute) := by
  unfold rpmAnswer
  split <;> rfl

/-- It was granted where the count is within the limit. -/
theorem granted_rpmAnswer (m count : ℤ) :
    (rpmAnswer principal m count).Granted principal minute
      = decide (m = minute ∧ count ≤ principal.rateLimitRpm) := by
  unfold rpmAnswer
  split
  next hover => simp [RpmTask.Granted, not_le.mpr hover]
  next hover => simp [RpmTask.Granted, not_lt.mp hover]

/-- One more increment in a life lets one more through, within the limit. -/
theorem letThrough_succ (limit n : ℤ) (h : 0 ≤ n) :
    letThrough limit (n + 1) = letThrough limit n + if n + 1 ≤ limit then 1 else 0 := by
  unfold letThrough
  split <;> omega

/-- Counting over the tasks when one of them moves. -/
theorem countP_split {T : Type} (p : T → Bool) (l r : List T) (t : T) :
    ((l ++ t :: r).countP p : ℤ) = (l ++ r).countP p + if p t then 1 else 0 := by
  rw [List.countP_append, List.countP_append, List.countP_cons]
  split <;> push_cast <;> omega

/-- The task after its `INCR` is counted, and granted within the limit. -/
theorem afterIncr_counted (m count : ℤ) :
    (if count = 1 then RpmTask.expire m count else rpmAnswer principal m count).Counted minute
      = decide (m = minute) := by
  split
  next => rfl
  next => exact counted_rpmAnswer m count

/-- So it was right after the `INCR`. -/
theorem afterIncr_granted (m count : ℤ) :
    (if count = 1 then RpmTask.expire m count else rpmAnswer principal m count).Granted principal
        minute = decide (m = minute ∧ count ≤ principal.rateLimitRpm) := by
  split
  next => rfl
  next => exact granted_rpmAnswer m count

/-- One more increment, the `count`-th of its life: the last life goes on, or
the next one starts. -/
inductive Lived : List ℤ → ℤ → List ℤ → Prop
  | goesOn {n : ℤ} {lives : List ℤ} : Lived (n :: lives) (n + 1) ((n + 1) :: lives)
  | starts {lives : List ℤ} : Lived lives 1 (1 :: lives)

section Lived

variable {lives lives' : List ℤ} {count : ℤ}

/-- The newest life is at the new count. -/
theorem Lived.head (h : Lived lives count lives') : lives'.head? = some count := by
  cases h with
  | goesOn => rfl
  | starts => rfl

/-- Every life counts something. -/
theorem Lived.pos (h : Lived lives count lives') (hpos : ∀ n ∈ lives, 1 ≤ n) :
    ∀ n ∈ lives', 1 ≤ n := by
  intro n hn
  cases h with
  | @goesOn m rest =>
    rcases List.mem_cons.mp hn with heq | hn
    · have hm := hpos m List.mem_cons_self
      omega
    · exact hpos n (List.mem_cons_of_mem _ hn)
  | starts =>
    rcases List.mem_cons.mp hn with heq | hn
    · omega
    · exact hpos n hn

/-- One call more is counted. -/
theorem Lived.sum (h : Lived lives count lives') : lives'.sum = lives.sum + 1 := by
  cases h with
  | goesOn =>
    simp only [List.sum_cons]
    omega
  | starts =>
    simp only [List.sum_cons]
    omega

/-- It is let through where the count is within the limit. -/
theorem Lived.share (limit : ℤ) (h : Lived lives count lives') (hpos : ∀ n ∈ lives, 1 ≤ n) :
    (lives'.map (letThrough limit)).sum
      = (lives.map (letThrough limit)).sum + if count ≤ limit then 1 else 0 := by
  cases h with
  | @goesOn m rest =>
    have hm := hpos m List.mem_cons_self
    simp only [List.map_cons, List.sum_cons]
    rw [letThrough_succ limit m (by omega)]
    omega
  | starts =>
    have hone := letThrough_succ limit 0 (le_refl 0)
    have hzero : letThrough limit 0 = 0 := by
      unfold letThrough
      omega
    rw [zero_add, hzero, zero_add] at hone
    simp only [List.map_cons, List.sum_cons]
    rw [hone]
    omega

end Lived

/-- What an `INCR` answers: it starts a life when there is none or the last
one has lapsed. -/
theorem lived_of_incr {redis : Redis} {now : ℚ} {key : String} {lives : List ℤ}
    (hlast : (redis.counters key).map (·.value) = lives.head?) :
    ∃ lives', Lived lives (redis.incr now key).2 lives' ∧ lives.length ≤ lives'.length
      ∧ ((∃ e, redis.counters key = some e ∧ ¬e.Live now) → 2 ≤ lives'.length)
      ∧ ((¬∃ e, redis.counters key = some e ∧ ¬e.Live now) →
        lives'.length ≤ max lives.length 1) := by
  have hanswer : (redis.incr now key).2 = (redis.counters.get now key).getD 0 + 1 := rfl
  cases hentry : redis.counters key with
  | none =>
    rw [hentry] at hlast
    obtain rfl := List.head?_eq_none_iff.mp hlast.symm
    rw [hanswer, Expiring.get_of_none hentry]
    refine ⟨[1], .starts, by simp, ?_, by simp⟩
    intro hlapsed
    obtain ⟨e, he, -⟩ := hlapsed
    cases he
  | some e =>
    rw [hentry] at hlast
    obtain ⟨rest, rfl⟩ := List.head?_eq_some_iff.mp hlast.symm
    by_cases hlive : e.Live now
    · rw [hanswer, Expiring.get_of_live hentry hlive]
      refine ⟨(e.value + 1) :: rest, .goesOn, by simp, ?_, by simp⟩
      intro hlapsed
      obtain ⟨e', he', hdead⟩ := hlapsed
      obtain rfl := Option.some.inj he'
      exact absurd hlive hdead
    · rw [hanswer, Expiring.get_of_dead hentry hlive]
      refine ⟨1 :: e.value :: rest, .starts, by simp, by simp, ?_⟩
      intro hnot
      exact absurd ⟨e, rfl, hlive⟩ hnot

/-- An `INCR` of this minute's counter: it goes on with its life, or starts
the next one. -/
theorem Lives.incr {now : ℚ} {w : RedisServer} {l r : List RpmTask} {lives : List ℤ}
    (h : Lives principal minute ⟨w, l ++ .incr minute :: r⟩ lives) :
    let counted := w.redis.incr now (rpmKey principal.quotaKey minute)
    ∃ lives', Lives principal minute ⟨⟨counted.1, now⟩, l ++ (if counted.2 = 1
          then .expire minute counted.2 else rpmAnswer principal minute counted.2) :: r⟩ lives'
      ∧ lives.length ≤ lives'.length
      ∧ (Late principal minute ⟨w, l ++ .incr minute :: r⟩ (.run l.length now) →
        2 ≤ lives'.length)
      ∧ (¬Late principal minute ⟨w, l ++ .incr minute :: r⟩ (.run l.length now) →
        lives'.length ≤ max lives.length 1) := by
  intro counted
  obtain ⟨hlast, hpos, hcounted, hgranted⟩ := h
  rw [countP_split] at hcounted hgranted
  simp only [RpmTask.Counted, RpmTask.Granted, Bool.false_eq_true, if_false, add_zero]
    at hcounted hgranted
  have hlate : Late principal minute ⟨w, l ++ .incr minute :: r⟩ (.run l.length now)
      ↔ ∃ e, w.redis.counters (rpmKey principal.quotaKey minute) = some e ∧ ¬e.Live now :=
    and_iff_right (getElem?_split_self _)
  rw [hlate]
  obtain ⟨lives', hlived, hlengths⟩ := lived_of_incr hlast
  refine ⟨lives', ⟨?_, hlived.pos hpos, ?_, ?_⟩, hlengths⟩
  · rw [hlived.head]
    exact counterValue_incr_self now w
  · rw [countP_split, afterIncr_counted, hcounted, hlived.sum]
    simp
  · rw [countP_split, afterIncr_granted, hgranted, hlived.share _ hpos]
    simp [counted]

/-- A step that leaves this minute's counter alone. -/
theorem Lives.quiet {now : ℚ} {w w' : RedisServer} {l r : List RpmTask} {t t' : RpmTask}
    {lives : List ℤ} (h : Lives principal minute ⟨w, l ++ t :: r⟩ lives)
    (hvalue : counterValue principal minute w' = counterValue principal minute w)
    (hcounted : t'.Counted minute = t.Counted minute)
    (hgranted : t'.Granted principal minute = t.Granted principal minute)
    (ht : t ≠ .incr minute) :
    ∃ lives', Lives principal minute ⟨w', l ++ t' :: r⟩ lives' ∧ lives.length ≤ lives'.length
      ∧ (Late principal minute ⟨w, l ++ t :: r⟩ (.run l.length now) → 2 ≤ lives'.length)
      ∧ (¬Late principal minute ⟨w, l ++ t :: r⟩ (.run l.length now) →
        lives'.length ≤ max lives.length 1) := by
  refine ⟨lives, ⟨?_, h.pos, ?_, ?_⟩, le_refl _, ?_, fun _ => le_max_left _ _⟩
  · rw [hvalue]
    exact h.last
  · rw [countP_split, hcounted, ← countP_split]
    exact h.counted
  · rw [countP_split, hgranted, ← countP_split]
    exact h.granted
  · intro hlate
    have hself : some t = some (.incr minute) := (getElem?_split_self t).symm.trans hlate.1
    exact absurd (Option.some.inj hself) ht

/-- **One step**: the key lives on, or starts over when an increment comes
late. -/
theorem Lives.step {now : ℚ} {w w' : RedisServer} {l r : List RpmTask} {t t' : RpmTask}
    {lives : List ℤ} (h : Lives principal minute ⟨w, l ++ t :: r⟩ lives)
    (hadv : (rpmCommands principal).advance now w t = some (w', t')) :
    ∃ lives', Lives principal minute ⟨w', l ++ t' :: r⟩ lives' ∧ lives.length ≤ lives'.length
      ∧ (Late principal minute ⟨w, l ++ t :: r⟩ (.run l.length now) → 2 ≤ lives'.length)
      ∧ (¬Late principal minute ⟨w, l ++ t :: r⟩ (.run l.length now) →
        lives'.length ≤ max lives.length 1) := by
  unfold rpmCommands at hadv
  dsimp only at hadv
  split at hadv
  next =>
    obtain ⟨⟨redis, t''⟩, hnext, heq⟩ := Option.map_eq_some_iff.mp hadv
    obtain ⟨rfl, rfl⟩ := Prod.mk.inj heq
    cases t with
    | readClock =>
      obtain ⟨rfl, rfl⟩ := Prod.mk.inj (Option.some.inj hnext)
      exact h.quiet rfl rfl rfl (by simp)
    | incr m =>
      obtain ⟨rfl, rfl⟩ := Prod.mk.inj (Option.some.inj hnext)
      by_cases hm : m = minute
      · subst hm
        exact h.incr
      · refine h.quiet (counterValue_incr_of_ne (Ne.symm hm) now w) ?_ ?_ (by simpa using hm)
        · rw [afterIncr_counted, decide_eq_false hm]
          rfl
        · rw [afterIncr_granted, decide_eq_false fun hand => hm hand.1]
          rfl
    | expire m count =>
      obtain ⟨rfl, rfl⟩ := Prod.mk.inj (Option.some.inj hnext)
      exact h.quiet (counterValue_expire _ now 60 w) (counted_rpmAnswer m count)
        (granted_rpmAnswer m count) (by simp)
    | passed m => cases hnext
    | refused m => cases hnext
  next => cases hadv

/-- Calls start by reading the clock. -/
def RpmStart (_ : Conf RedisServer RpmTask) : Act RpmTask ℚ → Prop
  | .start t => t = .readClock
  | .run _ _ => True

/-- One more call that has just begun. -/
theorem Lives.start {w : RedisServer} {ts : List RpmTask} {lives : List ℤ}
    (h : Lives principal minute ⟨w, ts⟩ lives) :
    Lives principal minute ⟨w, ts ++ [.readClock]⟩ lives := by
  refine ⟨h.last, h.pos, ?_, ?_⟩
  · rw [List.countP_append, ← h.counted]
    simp [RpmTask.Counted]
  · rw [List.countP_append, ← h.granted]
    simp [RpmTask.Granted]

/-- A counter that was never set. -/
theorem lives_start {w : RedisServer}
    (hfresh : w.redis.counters (rpmKey principal.quotaKey minute) = none) :
    Lives principal minute ⟨w, []⟩ [] := by
  refine ⟨?_, by simp, rfl, rfl⟩
  unfold counterValue
  rw [hfresh]
  rfl

/-- The key does not lose a life. -/
theorem exists_lives_of_run {k : ℕ} {acts : List (Act RpmTask ℚ)}
    {c c' : Conf RedisServer RpmTask} (hrun : (rpmCommands principal).Run RpmStart c acts c')
    (h : ∃ lives, Lives principal minute c lives ∧ k ≤ lives.length) :
    ∃ lives, Lives principal minute c' lives ∧ k ≤ lives.length := by
  refine System.Run.invariant
    (I := fun c => ∃ lives, Lives principal minute c lives ∧ k ≤ lives.length) ?_ ?_ hrun h
  · intro w ts t hok hI
    obtain ⟨lives, hlives, hk⟩ := hI
    obtain rfl := hok
    exact ⟨lives, hlives.start, hk⟩
  · intro w l t r now w' t' _ hadv hI
    obtain ⟨lives, hlives, hk⟩ := hI
    obtain ⟨lives', hlives', hle, -⟩ := hlives.step hadv
    exact ⟨lives', hlives', hk.trans hle⟩

/-- A late increment gives it one life more. -/
theorem exists_two_lives_of_late {c c' : Conf RedisServer RpmTask} {a : Act RpmTask ℚ}
    {lives : List ℤ} (h : Lives principal minute c lives)
    (hstep : (rpmCommands principal).step c a = some c') (hlate : Late principal minute c a) :
    ∃ lives', Lives principal minute c' lives' ∧ 2 ≤ lives'.length := by
  cases a with
  | start t => exact hlate.elim
  | run i now =>
    obtain ⟨l, t, r, w', t', htasks, rfl, hadv, rfl⟩ := (System.step_run_iff _).mp hstep
    obtain ⟨world, tasks⟩ := c
    obtain rfl : tasks = l ++ t :: r := htasks
    obtain ⟨lives', hlives', -, htwice, -⟩ := h.step hadv
    exact ⟨lives', hlives', htwice hlate⟩

/-- Without a late increment it lives once. -/
theorem exists_lives_of_timely {acts : List (Act RpmTask ℚ)} {c c' : Conf RedisServer RpmTask}
    (hrun : (rpmCommands principal).Run
      (fun c a => RpmStart c a ∧ ¬Late principal minute c a) c acts c')
    (h : ∃ lives, Lives principal minute c lives ∧ lives.length ≤ 1) :
    ∃ lives, Lives principal minute c' lives ∧ lives.length ≤ 1 := by
  refine System.Run.invariant
    (I := fun c => ∃ lives, Lives principal minute c lives ∧ lives.length ≤ 1) ?_ ?_ hrun h
  · intro w ts t hok hI
    obtain ⟨lives, hlives, hk⟩ := hI
    obtain rfl := hok.1
    exact ⟨lives, hlives.start, hk⟩
  · intro w l t r now w' t' hok hadv hI
    obtain ⟨lives, hlives, hk⟩ := hI
    obtain ⟨lives', hlives', -, -, hle⟩ := hlives.step hadv
    exact ⟨lives', hlives', (hle hok.2).trans (max_le hk (le_refl 1))⟩

end Lives

/-! ## The cap -/

section Cap

variable {limit : ℤ}

/-- A life lets through no fewer than none. -/
theorem letThrough_nonneg {n : ℤ} (h : 1 ≤ n) : 0 ≤ letThrough limit n := by
  unfold letThrough
  omega

/-- And no more than it counts. -/
theorem sum_letThrough_le_sum (lives : List ℤ) :
    (lives.map (letThrough limit)).sum ≤ lives.sum := by
  induction lives with
  | nil => exact le_refl _
  | cons n lives ih =>
    have hle : letThrough limit n ≤ n := min_le_left _ _
    simp only [List.map_cons, List.sum_cons]
    omega

/-- A limit of zero or less lets nobody through. -/
theorem sum_letThrough_of_nonpos (hlimit : limit ≤ 0) :
    ∀ {lives : List ℤ}, (∀ n ∈ lives, 1 ≤ n) → (lives.map (letThrough limit)).sum = 0
  | [], _ => rfl
  | n :: lives, hpos => by
    have ih := sum_letThrough_of_nonpos hlimit fun m hm => hpos m (List.mem_cons_of_mem _ hm)
    have hn := hpos n List.mem_cons_self
    have hzero : letThrough limit n = 0 := by
      unfold letThrough
      omega
    simp only [List.map_cons, List.sum_cons]
    omega

/-- One life lets at most the limit through. -/
theorem sum_letThrough_of_once {lives : List ℤ} (honce : lives.length ≤ 1) :
    (lives.map (letThrough limit)).sum ≤ max limit 0 := by
  match lives, honce with
  | [], _ => exact le_max_right _ _
  | [n], _ =>
    have hle : letThrough limit n ≤ max limit 0 := min_le_right _ _
    simpa using hle

/-- Together the lives let through what they saw, or the limit. -/
theorem min_le_sum_letThrough (hlimit : 0 ≤ limit) :
    ∀ {lives : List ℤ}, (∀ n ∈ lives, 1 ≤ n) →
      min lives.sum limit ≤ (lives.map (letThrough limit)).sum
  | [], _ => min_le_left _ _
  | n :: lives, hpos => by
    have hrest : ∀ m ∈ lives, 1 ≤ m := fun m hm => hpos m (List.mem_cons_of_mem _ hm)
    have ih := min_le_sum_letThrough hlimit hrest
    have hn := hpos n List.mem_cons_self
    have hnonneg : 0 ≤ (lives.map (letThrough limit)).sum :=
      List.sum_nonneg fun x hx => by
        obtain ⟨m, hm, rfl⟩ := List.mem_map.mp hx
        exact letThrough_nonneg (hrest m hm)
    simp only [List.map_cons, List.sum_cons]
    unfold letThrough at ih hnonneg ⊢
    omega

/-- Two lives that saw more than the limit let more than the limit through. -/
theorem lt_sum_letThrough (hlimit : 1 ≤ limit) {lives : List ℤ} (hpos : ∀ n ∈ lives, 1 ≤ n)
    (htwice : 2 ≤ lives.length) (hsum : limit < lives.sum) :
    limit < (lives.map (letThrough limit)).sum := by
  match lives, htwice with
  | n :: m :: rest, _ =>
    have hrest : ∀ k ∈ m :: rest, 1 ≤ k := fun k hk => hpos k (List.mem_cons_of_mem _ hk)
    have hmin := min_le_sum_letThrough (by omega : 0 ≤ limit) hrest
    have hn := hpos n List.mem_cons_self
    have hm := hpos m (by simp)
    have hnonneg : 0 ≤ rest.sum :=
      List.sum_nonneg fun k hk => by
        have := hpos k (by simp [hk])
        omega
    rw [List.map_cons, List.sum_cons]
    rw [List.sum_cons] at hsum
    have hge : 1 ≤ (m :: rest).sum := by
      rw [List.sum_cons]
      omega
    have hshare : letThrough limit n = min n limit := by
      unfold letThrough
      omega
    omega

end Cap

/-- The calls of the minute that returned without raising. -/
def passedIn (minute : ℤ) (tasks : List RpmTask) : ℕ :=
  tasks.countP fun t => decide (t = .passed minute)

/-- The calls of the minute that have incremented its counter. -/
def callsIn (minute : ℤ) (tasks : List RpmTask) : ℕ :=
  tasks.countP (RpmTask.Counted minute)

/-- The call has been answered. -/
def RpmTask.Ended : RpmTask → Bool
  | .passed _ => true
  | .refused _ => true
  | _ => false

/-- Those that passed were granted. -/
theorem passedIn_le (principal : AgentPrincipal) (minute : ℤ) (tasks : List RpmTask) :
    passedIn minute tasks ≤ tasks.countP (RpmTask.Granted principal minute) := by
  refine List.countP_mono_left fun t _ ht => ?_
  rw [of_decide_eq_true ht]
  exact decide_eq_true rfl

/-- Once all are answered, they are the same. -/
theorem passedIn_eq (principal : AgentPrincipal) (minute : ℤ) {tasks : List RpmTask}
    (hended : ∀ t ∈ tasks, t.Ended = true) :
    passedIn minute tasks = tasks.countP (RpmTask.Granted principal minute) := by
  refine List.countP_congr fun t ht => ?_
  have h := hended t ht
  cases t with
  | passed m => simp [RpmTask.Granted]
  | refused m => simp [RpmTask.Granted]
  | readClock => cases h
  | incr m => cases h
  | expire m count => cases h

/-- **When the RPM cap holds.** It does in every state of every run in which
the limit lets nobody through, or no more calls of the minute than the limit
increment the counter, or no increment finds the key past its deadline; and
once all calls have ended, only then. -/
theorem rpm_cap_iff (principal : AgentPrincipal) (w : RedisServer) (minute : ℤ)
    (hfresh : w.redis.counters (rpmKey principal.quotaKey minute) = none)
    (acts : List (Act RpmTask ℚ)) (c : Conf RedisServer RpmTask)
    (hrun : (rpmCommands principal).Run RpmStart ⟨w, []⟩ acts c) :
    let fits := principal.rateLimitRpm ≤ 0
      ∨ (callsIn minute c.tasks : ℤ) ≤ principal.rateLimitRpm
      ∨ (rpmCommands principal).Run (fun c a => RpmStart c a ∧ ¬Late principal minute c a)
        ⟨w, []⟩ acts c
    (fits → (passedIn minute c.tasks : ℤ) ≤ max principal.rateLimitRpm 0)
    ∧ ((∀ t ∈ c.tasks, t.Ended = true) →
      (passedIn minute c.tasks : ℤ) ≤ max principal.rateLimitRpm 0 → fits) := by
  intro fits
  have hle : (passedIn minute c.tasks : ℤ)
      ≤ c.tasks.countP (RpmTask.Granted principal minute) := by
    exact_mod_cast passedIn_le principal minute c.tasks
  refine ⟨?_, ?_⟩
  · intro hfits
    obtain ⟨lives, hlives, -⟩ := exists_lives_of_run hrun ⟨[], lives_start hfresh, Nat.zero_le _⟩
    rcases hfits with hnone | hfew | htimely
    · rw [hlives.granted, sum_letThrough_of_nonpos hnone hlives.pos] at hle
      exact hle.trans (le_max_right _ _)
    · have hsum : (lives.map (letThrough principal.rateLimitRpm)).sum ≤ lives.sum :=
        sum_letThrough_le_sum lives
      rw [← hlives.granted, ← hlives.counted] at hsum
      exact (hle.trans hsum).trans (hfew.trans (le_max_left _ _))
    · obtain ⟨once, honce, hlength⟩ :=
        exists_lives_of_timely htimely ⟨[], lives_start hfresh, Nat.zero_le _⟩
      rw [honce.granted] at hle
      exact hle.trans (sum_letThrough_of_once hlength)
  · intro hended hcap
    by_contra hnot
    obtain ⟨hlimit, hcalls, hlate⟩ : 0 < principal.rateLimitRpm
        ∧ principal.rateLimitRpm < callsIn minute c.tasks
        ∧ ¬(rpmCommands principal).Run (fun c a => RpmStart c a ∧ ¬Late principal minute c a)
          ⟨w, []⟩ acts c := by
      refine ⟨?_, ?_, ?_⟩
      · exact not_le.mp fun h => hnot (.inl h)
      · exact not_le.mp fun h => hnot (.inr (.inl h))
      · exact fun h => hnot (.inr (.inr h))
    -- A late increment would have given the key a second life, which shows.
    refine hlate (System.Run.strengthen hrun ?_)
    intro acts₁ c₁ a c₂ acts₂ hpre hok hstep hpost
    refine ⟨hok, fun hisLate => ?_⟩
    obtain ⟨lives₁, hlives₁, -⟩ := exists_lives_of_run hpre ⟨[], lives_start hfresh, Nat.zero_le _⟩
    obtain ⟨lives, hlives, hlength⟩ :=
      exists_lives_of_run hpost (exists_two_lives_of_late hlives₁ hstep hisLate)
    have hcalls' : principal.rateLimitRpm < lives.sum := by
      rw [← hlives.counted]
      exact hcalls
    have hover := lt_sum_letThrough (by omega) hlives.pos hlength hcalls'
    rw [← hlives.granted, ← passedIn_eq principal minute hended] at hover
    omega

instance (principal : AgentPrincipal) (minute : ℤ) (c : Conf RedisServer RpmTask) :
    (a : Act RpmTask ℚ) → Decidable (RpmStart c a ∧ ¬Late principal minute c a)
  | .start t => inferInstanceAs (Decidable (t = .readClock ∧ ¬False))
  | .run i now =>
    match h : c.world.redis.counters (rpmKey principal.quotaKey minute) with
    | none => .isTrue ⟨trivial, fun hlate => by
        obtain ⟨-, e, he, -⟩ := hlate
        rw [h] at he
        cases he⟩
    | some e =>
      decidable_of_iff (¬(c.tasks[i]? = some (.incr minute) ∧ ¬e.Live now)) <| by
        unfold RpmStart Late
        rw [h]
        simp

/-- An agent with one request a minute. -/
def oneRequest : AgentPrincipal :=
  { callerOf ("internal", "agent-1") with rateLimitRpm := 1 }

/-- Two calls of the first minute, both counted before it is over. -/
def withinTheMinute : List (Act RpmTask ℚ) :=
  [.start .readClock, .run 0 0, .run 0 0, .run 0 0,
    .start .readClock, .run 1 59, .run 1 (119 / 2)]

/-- Within the minute the cap holds. -/
theorem rpm_cap_iff_withinTheMinute :
    ∃ c : Conf RedisServer RpmTask, RpmTask.refused 0 ∈ c.tasks
      ∧ (passedIn 0 c.tasks : ℤ) ≤ max oneRequest.rateLimitRpm 0 := by
  have htrace : ((rpmCommands oneRequest).execIf
      (fun c a => decide (RpmStart c a ∧ ¬Late oneRequest 0 c a)) ⟨{}, []⟩ withinTheMinute).any
      (fun c => decide (RpmTask.refused 0 ∈ c.tasks)) = true := by
    decide +kernel
  obtain ⟨c, hrun, hrefused⟩ := System.exists_run_of_any htrace
  exact ⟨c, of_decide_eq_true hrefused,
    (rpm_cap_iff oneRequest {} 0 rfl withinTheMinute c (hrun.mono fun _ _ => And.left)).1
      (.inr (.inr hrun))⟩

/-- The second call reads the clock in the last second of the minute and
increments the counter in the next. -/
def acrossTheMinute : List (Act RpmTask ℚ) :=
  [.start .readClock, .run 0 0, .run 0 0, .run 0 0,
    .start .readClock, .run 1 59, .run 1 61, .run 1 61]

/-- The key is gone by then, and both calls of the minute pass. -/
theorem late_increment_passes :
    ¬ ∀ (principal : AgentPrincipal) (acts : List (Act RpmTask ℚ)) (c : Conf RedisServer RpmTask),
      (rpmCommands principal).Run RpmStart ⟨{}, []⟩ acts c →
      ∀ minute, (passedIn minute c.tasks : ℤ) ≤ max principal.rateLimitRpm 0 := by
  intro hall
  have htrace : ((rpmCommands oneRequest).exec ⟨{}, []⟩ acrossTheMinute).any
      (fun c => decide (c.tasks = [.passed 0, .passed 0])) = true := by
    decide +kernel
  obtain ⟨c, hexec, htasks⟩ := (Option.any_eq_true _ _).mp htrace
  have hrun : (rpmCommands oneRequest).Run RpmStart ⟨{}, []⟩ acrossTheMinute c := by
    refine System.Run.of_exec ?_ hexec
    intro a ha c₁
    simp only [acrossTheMinute, List.mem_cons, List.not_mem_nil, or_false] at ha
    rcases ha with rfl | rfl | rfl | rfl | rfl | rfl | rfl | rfl <;> trivial
  have hcap := hall oneRequest acrossTheMinute c hrun 0
  rw [of_decide_eq_true htasks] at hcap
  exact absurd hcap (by decide)

end ControlPlane
