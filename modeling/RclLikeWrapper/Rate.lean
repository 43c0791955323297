/-
  RclLikeWrapper.Rate
  ───────────────────
  **`Rate`: FIXED-CADENCE SLEEPING WITH CATCH-UP, IN `int64_t` NANOSECONDS.**

  `Rate(period)` remembers `next_time_ = now + period`.  `sleep()` reads the steady clock;
  if it is early it sleeps until `next_time_`, otherwise it runs

      while (now >= next_time_) next_time_ += period_;

  and sleeps until the new `next_time_`.  Time points are `steady_clock` counts of
  nanoseconds and the period is `std::chrono::milliseconds`, both `int64_t`: the period is
  converted as `period.count() * 1000000`, and that product and every `+` wrap modulo
  `2^64` (`wrapInt64`).  The constructor checks nothing, so the loop is modelled with a
  bound `fuel` on its iterations: `catchUp` answers `none` when the loop has not exited
  within it.

  Main results:
    * `catchUp_eq` / `catchUp_zero` — with a positive step the loop exits after exactly
      `⌊(now − next_time_)/step⌋ + 1` iterations when the value it exits at fits in
      `int64_t`; with a zero step it never exits once `now ≥ next_time_`;
    * `sleep_returns_after_catch_up_iterations` — hence `sleep()` returns after exactly
      that many iterations for every positive period whose nanosecond count fits, and
      never for a period whose nanosecond count wraps to zero (`0`, or `2^58` ms);
    * `sleep_targets_are_next_ticks` — for such a period and non-decreasing call instants
      from construction on, every `sleep()` sleeps until the least grid point
      `t0 + m·period` (`m ≥ 1`) after its call, as long as those points fit;
    * `overflowing_period_sleeps_off_grid` — a positive period whose nanosecond count
      does not fit leaves the grid.
-/
import Mathlib.Data.Int.Order.Basic
import Mathlib.Data.List.Chain
import Mathlib.Tactic.Linarith
import Mathlib.Tactic.NormNum
import Mathlib.Tactic.Ring

namespace RclLikeWrapper

/-! ## §1. `int64_t` arithmetic, the rate and its loop. -/

/-- The `int64_t` an operation leaves whose mathematical result is `x`: `x` modulo `2^64`,
    read in two's complement.  The standard leaves signed overflow undefined; the compiled
    code wraps. -/
def wrapInt64 (x : Int) : Int := x.bmod (2 ^ 64)

/-- Within the range of `int64_t` nothing wraps. -/
theorem wrapInt64_eq_self {x : Int} (h1 : -2 ^ 63 ≤ x) (h2 : x < 2 ^ 63) : wrapInt64 x = x := by
  rw [wrapInt64, Int.bmod_def]
  norm_num at h1 h2 ⊢
  split_ifs <;> omega

/-- Steady-clock nanoseconds per millisecond of `period_`. -/
def nsPerMs : Int := 1000000

/-- `period_` in the clock's `int64_t` nanoseconds: `period.count() * 1000000`. -/
def periodNs (period : Int) : Int := wrapInt64 (period * nsPerMs)

theorem periodNs_eq {period : Int} (h0 : 0 < period) (h : period * nsPerMs < 2 ^ 63) :
    periodNs period = period * nsPerMs :=
  wrapInt64_eq_self (by unfold nsPerMs at h ⊢; norm_num; omega) h

/-- A period of `2^58` ms, about nine million years, converts to zero nanoseconds. -/
example : periodNs (2 ^ 58) = 0 := by decide

/-- `Rate`'s fields. -/
structure Rate where
  /-- `period_`, in milliseconds. -/
  period : Int
  /-- `next_time_`, a steady-clock time point in nanoseconds. -/
  nextTime : Int
  deriving Repr, DecidableEq

/-- `Rate::Rate(period)`, constructed at steady-clock time `now`. -/
def Rate.init (period now : Int) : Rate := ⟨period, wrapInt64 (now + periodNs period)⟩

/-- `while (now >= next_time_) next_time_ += period_;` from `next`, adding `step` each
    time, allowed `fuel` iterations: the value on exit, or `none` if it has not exited. -/
def catchUp (step now : Int) : Nat → Int → Option Int
  | 0, next => if now ≥ next then none else some next
  | fuel + 1, next =>
    if now ≥ next then catchUp step now fuel (wrapInt64 (next + step)) else some next

/-- `Rate::sleep()` called at steady-clock time `now`, its loop allowed `fuel` iterations:
    the rate after it and the time point passed to `sleep_until`. -/
def Rate.sleep (r : Rate) (now : Int) (fuel : Nat) : Option (Rate × Int) :=
  if now < r.nextTime then some (r, r.nextTime)
  else (catchUp (periodNs r.period) now fuel r.nextTime).map fun next => (⟨r.period, next⟩, next)

/-! ## §2. When the catch-up loop exits. -/

/-- The least grid point `t0 + m·p` with `m ≥ 1` strictly after `c` (for `c ≥ t0`). -/
def nextTick (t0 p c : Int) : Int := t0 + ((c - t0) / p + 1) * p

/-- `⌊(now − next)/step⌋ + 1`: the iterations the loop takes from `next` to pass `now`. -/
def catchUpIterations (step now next : Int) : Nat := ((now - next) / step).toNat + 1

section CatchUp

variable {step now : Int}

theorem catchUp_of_lt {next : Int} (h : now < next) (fuel : Nat) :
    catchUp step now fuel next = some next := by
  cases fuel <;> simp [catchUp, not_le.mpr h]

/-- `k` iterations in a row, while the loop condition holds at each of them and, the step
    being non-negative, the last value reached still fits in `int64_t`. -/
theorem catchUp_iterate (hs : 0 ≤ step) (fuel : Nat) :
    ∀ (k : Nat) (next : Int), -2 ^ 63 ≤ next → next + k * step < 2 ^ 63 →
      (∀ j : Nat, j < k → next + j * step ≤ now) →
      catchUp step now (fuel + k) next = catchUp step now fuel (next + k * step)
  | 0, next, _, _, _ => by simp
  | k + 1, next, hlo, hhi, h => by
    have h0 : next ≤ now := by simpa using h 0 (Nat.succ_pos k)
    have hk : 0 ≤ (k : Int) * step := mul_nonneg (Int.natCast_nonneg k) hs
    push_cast at hhi
    have hwrap : wrapInt64 (next + step) = next + step :=
      wrapInt64_eq_self (by linarith) (by linarith)
    rw [← Nat.add_assoc, catchUp, if_pos h0, hwrap,
      catchUp_iterate hs fuel k (next + step) (by linarith) (by linarith) fun j hj => ?_]
    · congr 1; push_cast; ring
    · have := h (j + 1) (Nat.succ_lt_succ hj); push_cast at this; linarith

/-- **The loop with a positive step.** From `next ≤ now`, as long as the value it exits at
    fits in `int64_t`, the loop exits exactly when allowed `⌊(now − next)/step⌋ + 1`
    iterations, at the first `next + k·step` past `now`. -/
theorem catchUp_eq (hs : 0 < step) {next : Int} (hlo : -2 ^ 63 ≤ next) (h : next ≤ now)
    (hhi : nextTick next step now < 2 ^ 63) (fuel : Nat) :
    catchUp step now fuel next =
      if catchUpIterations step now next ≤ fuel then some (nextTick next step now) else none := by
  have hq : 0 ≤ (now - next) / step := Int.ediv_nonneg (by omega) hs.le
  have hlt : now < nextTick next step now := by
    unfold nextTick; linarith [Int.lt_ediv_add_one_mul_self (now - next) hs]
  -- every value before the exit is at most `now`
  have below : ∀ j : Nat, (j : Int) ≤ (now - next) / step → next + j * step ≤ now := by
    intro j hj
    calc next + j * step ≤ next + (now - next) / step * step := by
          linarith [Int.mul_le_mul_of_nonneg_right hj hs.le]
      _ ≤ now := by linarith [Int.ediv_mul_le (now - next) hs.ne']
  unfold catchUpIterations
  split_ifs with hk
  · obtain ⟨d, rfl⟩ := Nat.exists_eq_add_of_le' hk
    have hcast : ((((now - next) / step).toNat + 1 : Nat) : Int) = (now - next) / step + 1 := by
      push_cast; rw [Int.toNat_of_nonneg hq]
    rw [catchUp_iterate hs.le d _ next hlo (by rw [hcast]; exact hhi) fun j hj =>
      below j (by have : (j : Int) < _ := Nat.cast_lt.mpr hj; rw [hcast] at this; omega),
      hcast]
    exact catchUp_of_lt hlt d
  · have hf : (fuel : Int) ≤ (now - next) / step := by omega
    have hv := below fuel hf
    rw [← Nat.zero_add fuel, catchUp_iterate hs.le 0 fuel next hlo (by linarith)
      fun j hj => below j (by omega)]
    simp [catchUp, hv]

end CatchUp

/-- `t` is the least grid point `t0 + m·p` (integer `m ≥ 1`) strictly greater than `c`,
    stated without the catch-up loop. -/
def IsNextTick (t0 p c t : Int) : Prop :=
  (∃ m : Int, 1 ≤ m ∧ t = t0 + m * p) ∧ c < t ∧
    ∀ m : Int, 1 ≤ m → c < t0 + m * p → t ≤ t0 + m * p

section Grid

variable {t0 p : Int}

theorem nextTick_spec (hp : 0 < p) {c : Int} (hc : t0 ≤ c) :
    IsNextTick t0 p c (nextTick t0 p c) := by
  have hq : 0 ≤ (c - t0) / p := Int.ediv_nonneg (by omega) hp.le
  refine ⟨⟨(c - t0) / p + 1, by omega, rfl⟩, ?_, fun m _ hm => ?_⟩
  · unfold nextTick; linarith [Int.lt_ediv_add_one_mul_self (c - t0) hp]
  · have : (c - t0) / p < m := (Int.ediv_lt_iff_lt_mul hp).mpr (by linarith)
    have hmul := Int.mul_le_mul_of_nonneg_right (show (c - t0) / p + 1 ≤ m by omega) hp.le
    unfold nextTick; linarith

/-- The grid point before the next tick is not after the call. -/
theorem nextTick_sub_le (hp : 0 < p) (c : Int) : nextTick t0 p c - p ≤ c := by
  unfold nextTick; linarith [Int.ediv_mul_le (c - t0) hp.ne']

/-- The next tick after `c` is the same on a grid started at any of its points. -/
theorem nextTick_shift (hp : 0 < p) (m c : Int) : nextTick (t0 + m * p) p c = nextTick t0 p c := by
  have hq : (c - (t0 + m * p)) / p = (c - t0) / p - m := by
    rw [show c - (t0 + m * p) = c - t0 + (-m) * p by ring, Int.add_mul_ediv_right _ _ hp.ne']
    ring
  rw [nextTick, nextTick, hq]; ring

/-- **One `sleep()` on the grid.** If `next_time_` is a grid point `t0 + m·p` (`p` the
    period in nanoseconds, which fits) whose predecessor is not after the call, and the
    next tick after the call fits, then with enough fuel the call sleeps until
    `nextTick t0 p c` and leaves `next_time_` there. -/
theorem sleep_on_grid {r : Rate} (hp : r.period * nsPerMs = p) (hpos : 0 < p)
    (hp63 : p < 2 ^ 63) (hlo : -2 ^ 63 ≤ r.nextTime) {m : Int} (hnext : r.nextTime = t0 + m * p)
    {c : Int} (hprev : r.nextTime - p ≤ c) (hfit : nextTick t0 p c < 2 ^ 63) :
    ∃ K, ∀ fuel, K ≤ fuel →
      r.sleep c fuel = some (⟨r.period, nextTick t0 p c⟩, nextTick t0 p c) := by
  have hshift : nextTick r.nextTime p c = nextTick t0 p c := by rw [hnext, nextTick_shift hpos]
  by_cases hlt : c < r.nextTime
  · have hq : (c - t0) / p = m - 1 := by
      apply le_antisymm
      · rw [← Int.lt_add_one_iff, Int.ediv_lt_iff_lt_mul hpos]; linarith
      · rw [Int.le_ediv_iff_mul_le hpos]; linarith
    refine ⟨0, fun fuel _ => ?_⟩
    have ht : nextTick t0 p c = r.nextTime := by rw [nextTick, hq, hnext]; ring
    rw [Rate.sleep, if_pos hlt, ht]
  · refine ⟨catchUpIterations p c r.nextTime, fun fuel hfuel => ?_⟩
    have hper : 0 < r.period := by
      unfold nsPerMs at hp; omega
    rw [Rate.sleep, if_neg hlt, periodNs_eq hper (by rw [hp]; exact hp63), hp,
      catchUp_eq hpos hlo (by omega) (by rw [hshift]; exact hfit), if_pos hfuel, hshift]
    rfl

end Grid

/-- Successive `sleep()` calls at the given instants, each loop allowed `fuel`
    iterations: the `sleep_until` targets, or `none` if some loop has not exited. -/
def sleepTargets (fuel : Nat) : Rate → List Int → Option (List Int)
  | _, [] => some []
  | r, c :: cs =>
    match r.sleep c fuel with
    | none => none
    | some (r', t) => (sleepTargets fuel r' cs).map (t :: ·)

/-- **Every run of `sleep()` calls on the grid.** From a rate whose `next_time_` is a grid
    point after `t0`, not more than one period past the first call, non-decreasing calls
    whose next ticks fit sleep, given enough fuel, until those ticks. -/
theorem sleepTargets_on_grid {t0 p : Int} (hpos : 0 < p) (hp63 : p < 2 ^ 63)
    (ht0 : -2 ^ 63 ≤ t0) :
    ∀ (cs : List Int) (r : Rate), r.period * nsPerMs = p →
      (∃ m, 1 ≤ m ∧ r.nextTime = t0 + m * p) →
      (∀ c ∈ cs.head?, r.nextTime - p ≤ c) → cs.Chain' (· ≤ ·) →
      (∀ c ∈ cs, nextTick t0 p c < 2 ^ 63) →
      ∃ K, ∀ fuel, K ≤ fuel → sleepTargets fuel r cs = some (cs.map (nextTick t0 p))
  | [], _, _, _, _, _, _ => ⟨0, fun _ _ => rfl⟩
  | c :: cs, r, hp, ⟨m, hm, hnext⟩, hhead, hchain, hfit => by
    have hmp : p ≤ m * p := le_mul_of_one_le_left hpos.le hm
    have hc : t0 ≤ c := by linarith [hhead c rfl]
    obtain ⟨K₁, hK₁⟩ := sleep_on_grid hp hpos hp63 (by linarith) hnext (hhead c rfl)
      (hfit c (List.mem_cons_self c cs))
    obtain ⟨K₂, hK₂⟩ := sleepTargets_on_grid hpos hp63 ht0 cs ⟨r.period, nextTick t0 p c⟩ hp
      ⟨(c - t0) / p + 1, by have := Int.ediv_nonneg (by omega : 0 ≤ c - t0) hpos.le; omega, rfl⟩
      (fun c' hc' => le_trans (nextTick_sub_le hpos c) (hchain.rel_head? hc'))
      hchain.tail fun c' hc' => hfit c' (List.mem_cons_of_mem c hc')
    refine ⟨max K₁ K₂, fun fuel hfuel => ?_⟩
    simp only [sleepTargets, hK₁ fuel (le_of_max_le_left hfuel),
      hK₂ fuel (le_of_max_le_right hfuel), Option.map_some', List.map_cons]

/-- **The targets of `Rate::sleep` are the next ticks of the fixed grid.** For every
    positive period `P` whose nanosecond count fits in `int64_t`, construction instant
    `t0` and non-decreasing call instants `c₁ ≤ c₂ ≤ …` with `c₁ ≥ t0` whose next ticks fit
    in `int64_t`: given enough fuel, the `i`-th `sleep()` passes to `sleep_until` exactly
    the least `t0 + m·P` (`m ≥ 1`) strictly after `cᵢ` (so no call sleeps a negative
    duration, missed ticks are skipped and nothing drifts); and when each call comes no
    earlier than the previous target, the targets increase strictly. -/
theorem sleep_targets_are_next_ticks (P t0 : Int) (hP : 0 < P) (hP63 : P * nsPerMs < 2 ^ 63)
    (ht0 : -2 ^ 63 ≤ t0) (cs : List Int) (h0 : ∀ c ∈ cs.head?, t0 ≤ c)
    (hmono : cs.Chain' (· ≤ ·)) (hfit : ∀ c ∈ cs, nextTick t0 (P * nsPerMs) c < 2 ^ 63) :
    (∃ K, ∀ fuel, K ≤ fuel →
        sleepTargets fuel (Rate.init P t0) cs = some (cs.map (nextTick t0 (P * nsPerMs)))) ∧
      (∀ c ∈ cs, IsNextTick t0 (P * nsPerMs) c (nextTick t0 (P * nsPerMs) c)) ∧
      (cs.Chain' (fun c c' => nextTick t0 (P * nsPerMs) c ≤ c') →
        (cs.map (nextTick t0 (P * nsPerMs))).Chain' (· < ·)) := by
  have hpos : 0 < P * nsPerMs := by unfold nsPerMs; omega
  have hge : ∀ c ∈ cs, t0 ≤ c := by
    cases cs with
    | nil => simp
    | cons c cs =>
      intro c' hc'
      rcases List.mem_cons.mp hc' with rfl | hc'
      · exact h0 _ rfl
      · exact le_trans (h0 c rfl)
          (List.rel_of_pairwise_cons (List.chain'_iff_pairwise.mp hmono) hc')
  refine ⟨?_, fun c hc => nextTick_spec hpos (hge c hc), fun hwait => ?_⟩
  · cases cs with
    | nil => exact ⟨0, fun _ _ => rfl⟩
    | cons c cs' =>
      -- the first tick fits, so the constructor's sum does not wrap
      have hfirst : t0 + P * nsPerMs < 2 ^ 63 := by
        obtain ⟨m, hm, hmeq⟩ := (nextTick_spec hpos (hge c (List.mem_cons_self c cs'))).1
        have hmp : P * nsPerMs ≤ m * (P * nsPerMs) := le_mul_of_one_le_left hpos.le hm
        linarith [hfit c (List.mem_cons_self c cs')]
      have hinit : (Rate.init P t0).nextTime = t0 + 1 * (P * nsPerMs) := by
        rw [Rate.init, periodNs_eq hP hP63, wrapInt64_eq_self (by linarith) hfirst, one_mul]
      exact sleepTargets_on_grid hpos hP63 ht0 (c :: cs') _ rfl ⟨1, le_rfl, hinit⟩
        (fun c' hc' => by rw [hinit]; linarith [h0 c' hc']) hmono hfit
  · rw [List.chain'_map]
    exact (List.Chain'.iff_mem.mp hwait).imp fun c c' ⟨_, hc', h⟩ =>
      lt_of_le_of_lt h (nextTick_spec hpos (hge c' hc')).2.1

/-- A 1 ms rate constructed at `0`, slept at `0` and then 1.5 ms late: the targets are the
    ticks at 1 ms and 3 ms, the one at 2 ms being skipped. -/
example : sleepTargets 4 (Rate.init 1 0) [0, 2500000] = some [1000000, 3000000] := by decide

/-- The theorem at a 1 ms rate constructed at `0`, with calls at `0` and `2.5` ms. -/
theorem sleep_targets_are_next_ticks_at_one_ms :
    (0 : Int) < 1 ∧ (1 : Int) * nsPerMs < 2 ^ 63 ∧ -2 ^ 63 ≤ (0 : Int) ∧
      (∀ c ∈ [(0 : Int), 2500000].head?, (0 : Int) ≤ c) ∧
      [(0 : Int), 2500000].Chain' (· ≤ ·) ∧
      (∀ c ∈ [(0 : Int), 2500000], nextTick 0 (1 * nsPerMs) c < 2 ^ 63) ∧
      ((∃ K, ∀ fuel, K ≤ fuel → sleepTargets fuel (Rate.init 1 0) [0, 2500000] =
          some ([0, 2500000].map (nextTick 0 (1 * nsPerMs)))) ∧
        (∀ c ∈ [(0 : Int), 2500000], IsNextTick 0 (1 * nsPerMs) c (nextTick 0 (1 * nsPerMs) c)) ∧
        ([(0 : Int), 2500000].Chain' (fun c c' => nextTick 0 (1 * nsPerMs) c ≤ c') →
          ([(0 : Int), 2500000].map (nextTick 0 (1 * nsPerMs))).Chain' (· < ·))) :=
  ⟨by decide, by decide, by decide, by simp, by simp, by decide,
    sleep_targets_are_next_ticks 1 0 (by decide) (by decide) (by decide) [0, 2500000] (by simp)
      (by simp) (by decide)⟩

/-- **A period too long for `int64_t` leaves the grid.** `9223372036855` ms, about 292
    years, is positive, but its nanosecond count wraps to `-9223372036854551616`: a rate
    constructed at `0` and slept at `0` sleeps until `448384` ns, whatever fuel its loop
    is allowed past the one iteration it takes, instead of until its first tick
    `9223372036855000000` ns. -/
theorem overflowing_period_sleeps_off_grid :
    (0 : Int) < 9223372036855 ∧
      (∀ fuel, (Rate.init 9223372036855 0).sleep 0 (fuel + 1) =
        some (⟨9223372036855, 448384⟩, 448384)) ∧
      nextTick 0 (9223372036855 * nsPerMs) 0 = 9223372036855000000 := by
  refine ⟨by decide, fun fuel => ?_, by decide⟩
  have hinit : Rate.init 9223372036855 0 = ⟨9223372036855, -9223372036854551616⟩ := by decide
  have hstep : periodNs 9223372036855 = -9223372036854551616 := by decide
  have hwrap : wrapInt64 (-9223372036854551616 + -9223372036854551616) = 448384 := by decide
  rw [hinit, Rate.sleep, if_neg (by decide), hstep, catchUp, if_pos (by decide), hwrap,
    catchUp_of_lt (by decide)]
  rfl

end RclLikeWrapper
