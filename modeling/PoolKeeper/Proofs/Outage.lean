import PoolKeeper.Config
import PoolKeeper.Proofs.Attempts

/-!
# A fetch from a provider that stays out of reach

A fetch gives up after its last retry. It knows the last retry by its number, and attempts are
counted in a 32-bit word: when the word cannot hold one more than the retries allowed, the fetch
breaks down before any attempt is the last.

* `Lister.Failing`: list calls that all fail in passing; `Pursuit.numbers`: attempts by number;
* `RetryPolicy.pursue_givesUp`: with room in the word, the fetch gives up after the last retry;
* `RetryPolicy.pursue_breaksDown`: without, it breaks down one attempt before that;
* **`RetryPolicy.outage_ends_iff`**: a fetch gives up just when there is room in the word.
-/

namespace PoolKeeper

variable {σ : Type}

/-- All list calls fail, each in a way that may pass. -/
def Lister.Failing (call : Lister σ) : Prop :=
  ∀ now s, (call now s).1.answer.isPassing = true

/-- List calls that are all refused for the same reason. -/
def Lister.refusing (e : DriverError) : Lister Unit := fun _ s => (⟨.error (.refused e), ⟨0⟩⟩, s)

/-- The numbers of the attempts of a fetch. -/
def Pursuit.numbers (f : Pursuit σ) : List Nat := f.attempts.map Attempt.number

namespace RetryPolicy

variable {policy : RetryPolicy} {call : Lister σ} {number : Nat} {now : Instant} {s : σ}

theorem pursue_failing (hfail : call.Failing) (hle : number ≤ policy.maxRetries)
    (hroom : number + 1 < attemptLimit) (waits : Nat) (now : Instant) (s : σ) :
    ∃ next s',
      let run := policy.pursue call (waits + 1) number now s
      let rest := policy.pursue call waits (number + 1) next s'
      run.numbers = number :: rest.numbers ∧ run.step = rest.step := by
  refine ⟨(now.plus (call now s).1.lasts).plus (policy.delay number), (call now s).2, ?_⟩
  rw [pursue_of_repeats rfl ⟨hfail now s, hle, hroom⟩]
  exact ⟨rfl, rfl⟩

/-- **With room for one more than the retries**, a fetch gives up after the last of them. -/
theorem pursue_givesUp (hroom : policy.maxRetries + 1 < attemptLimit) (hfail : call.Failing)
    {n waits : Nat} (hn : number + n = policy.maxRetries + 1) (hwaits : n ≤ waits) :
    (policy.pursue call waits number now s).numbers = List.range' number (n + 1) ∧
      ∃ e, (policy.pursue call waits number now s).step =
        .done (.error (.retriesExhausted (policy.maxRetries + 1) e)) := by
  induction n generalizing number now s waits with
  | zero =>
    obtain rfl : number = policy.maxRetries + 1 := hn
    obtain ⟨e, he, hretryable⟩ := Listing.exists_of_isPassing (hfail now s)
    rw [pursue_eq_conclude rfl (.inr (Nat.lt_succ_self _))]
    refine ⟨rfl, e, ?_⟩
    simp only [he, conclude, hretryable, if_pos]
  | succ n ih =>
    obtain ⟨waits, rfl⟩ := Nat.exists_eq_add_of_lt hwaits
    obtain ⟨next, s', hnumbers, hstep⟩ :=
      pursue_failing hfail (show number ≤ policy.maxRetries by omega) (by omega) (n + waits) now s
    obtain ⟨hrest, hend⟩ := @ih (number + 1) next s' (n + waits) (by omega) (by omega)
    rw [hnumbers, hstep, hrest, List.range'_succ]
    exact ⟨rfl, hend⟩

theorem one_le_of_full (hfull : policy.maxRetries + 1 = attemptLimit) : 1 ≤ policy.maxRetries := by
  unfold attemptLimit at hfull
  omega

/-- **Without that room**, a fetch breaks down when its numbers are used up. -/
theorem pursue_breaksDown (hfull : policy.maxRetries + 1 = attemptLimit) (hfail : call.Failing)
    {n waits : Nat} (hn : number + n = policy.maxRetries) (hwaits : n ≤ waits) :
    (policy.pursue call waits number now s).numbers = List.range' number (n + 1) ∧
      (policy.pursue call waits number now s).step = .crashed := by
  induction n generalizing number now s waits with
  | zero =>
    obtain rfl : number = policy.maxRetries := hn
    have hlimit : attemptLimit ≤ policy.maxRetries + 1 := Nat.le_of_eq hfull.symm
    rw [pursue_of_not_repeats rfl fun h => absurd h.counted (Nat.not_lt.2 hlimit)]
    exact ⟨rfl, after_of_full (hfail now s) (Nat.le_refl _) hlimit⟩
  | succ n ih =>
    obtain ⟨waits, rfl⟩ := Nat.exists_eq_add_of_lt hwaits
    obtain ⟨next, s', hnumbers, hstep⟩ :=
      pursue_failing hfail (show number ≤ policy.maxRetries by omega) (by omega) (n + waits) now s
    obtain ⟨hrest, hend⟩ := @ih (number + 1) next s' (n + waits) (by omega) (by omega)
    rw [hnumbers, hstep, hrest, List.range'_succ]
    exact ⟨rfl, hend⟩

/-- When every list call fails transiently and there are retries left for all of them, no attempt is
the last: the fetch still waits, or it has broken down. -/
theorem pursue_ne_done (hfull : policy.maxRetries + 1 = attemptLimit) (hfail : call.Failing)
    (hle : number ≤ policy.maxRetries) (waits : Nat) (result : Except FetchError Pool) :
    (policy.pursue call waits number now s).step ≠ .done result := by
  induction waits generalizing number now s with
  | zero =>
    have hstep : (policy.pursue call 0 number now s).step =
        policy.after number now (call now s).1.answer := rfl
    rw [hstep]
    rcases Nat.lt_or_ge (number + 1) attemptLimit with hroom | hlimit
    · rw [Repeats.after ⟨hfail now s, hle, hroom⟩]
      nofun
    · rw [after_of_full (hfail now s) hle hlimit]
      nofun
  | succ waits ih =>
    rcases Nat.lt_or_ge (number + 1) attemptLimit with hroom | hlimit
    · obtain ⟨next, s', -, hstep⟩ := pursue_failing hfail hle hroom waits now s
      rw [hstep]
      exact ih (by omega)
    · rw [pursue_of_not_repeats rfl fun h => absurd h.counted (Nat.not_lt.2 hlimit)]
      show policy.after number now (call now s).1.answer ≠ _
      rw [after_of_full (hfail now s) hle hlimit]
      nofun

/-- **A fetch from a provider that stays out of reach gives up just when its attempts can be
counted.** Then it makes one attempt and all the retries, each with a number of its own; otherwise,
with as many retries as a word can hold, it makes as many attempts as there are numbers and breaks
down. No configuration is refused for the number of its retries. -/
theorem outage_ends_iff (h32 : policy.maxRetries < attemptLimit) (hfail : call.Failing)
    (now : Instant) (s : σ) :
    ((∃ waits e, (policy.pursue call waits 1 now s).numbers =
          List.range' 1 (policy.maxRetries + 1) ∧
        (policy.pursue call waits 1 now s).step =
          .done (.error (.retriesExhausted (policy.maxRetries + 1) e))) ↔
      policy.maxRetries + 1 < attemptLimit) ∧
    (policy.maxRetries + 1 = attemptLimit → ∀ waits, policy.maxRetries ≤ waits →
      (policy.pursue call waits 1 now s).numbers = List.range' 1 policy.maxRetries ∧
        (policy.pursue call waits 1 now s).step = .crashed) ∧
    (∀ (p : Provider σ) (d : DriverId), call = p.lister d → now.Ordinary →
      ((∃ e, ((Fetcher.retrying p d policy).run now s).step =
          .done (.error (.retriesExhausted (policy.maxRetries + 1) e))) ↔
        policy.maxRetries + 1 < attemptLimit) ∧
      (((Fetcher.retrying p d policy).run now s).step = .crashed ↔
        policy.maxRetries + 1 = attemptLimit)) ∧
    ∀ (c : PoolConfig) (n : Nat),
      let retries := { c.fetch.retries with maxRetries := n }
      { c with fetch := { c.fetch with retries } }.validate = c.validate := by
  have hroom : ∀ waits, policy.maxRetries ≤ waits → policy.maxRetries + 1 < attemptLimit →
      (policy.pursue call waits 1 now s).numbers = List.range' 1 (policy.maxRetries + 1) ∧
        ∃ e, (policy.pursue call waits 1 now s).step =
          .done (.error (.retriesExhausted (policy.maxRetries + 1) e)) :=
    fun _ hwaits hroom => pursue_givesUp hroom hfail (Nat.add_comm _ _) hwaits
  have hfull : policy.maxRetries + 1 = attemptLimit → ∀ waits, policy.maxRetries ≤ waits →
      (policy.pursue call waits 1 now s).numbers = List.range' 1 policy.maxRetries ∧
        (policy.pursue call waits 1 now s).step = .crashed := fun hfull waits hwaits => by
    have hpos := one_le_of_full hfull
    have hnumbers : policy.maxRetries - 1 + 1 = policy.maxRetries := Nat.sub_add_cancel hpos
    have hdown : (policy.pursue call waits 1 now s).numbers =
          List.range' 1 (policy.maxRetries - 1 + 1) ∧
        (policy.pursue call waits 1 now s).step = .crashed :=
      pursue_breaksDown hfull hfail (Nat.add_sub_cancel' hpos)
        (Nat.le_trans (Nat.sub_le _ _) hwaits)
    rwa [hnumbers] at hdown
  have hends : ∀ waits result, (policy.pursue call waits 1 now s).step = .done result →
      policy.maxRetries + 1 < attemptLimit := fun waits result hdone => by
    rcases Nat.lt_or_eq_of_le (Nat.succ_le_of_lt h32) with hlt | heq
    · exact hlt
    · exact absurd hdone (pursue_ne_done heq hfail (one_le_of_full heq) waits result)
  refine ⟨⟨fun ⟨waits, _, _, hdone⟩ => hends waits _ hdone, fun hlt => ?_⟩, hfull,
    fun p d hp hnow => ?_, fun c n => rfl⟩
  · obtain ⟨hnumbers, e, hdone⟩ := hroom policy.maxRetries (Nat.le_refl _) hlt
    exact ⟨policy.maxRetries, e, hnumbers, hdone⟩
  · have hpatient : policy.maxRetries ≤ Fetcher.patience := Nat.le_of_lt h32
    rw [run_retrying p d hnow, ← hp]
    refine ⟨⟨fun ⟨_, hdone⟩ => hends Fetcher.patience _ hdone,
      fun hlt => (hroom Fetcher.patience hpatient hlt).2⟩, fun hcrashed => ?_,
      fun heq => (hfull heq Fetcher.patience hpatient).2⟩
    rcases Nat.lt_or_eq_of_le (Nat.succ_le_of_lt h32) with hlt | heq
    · obtain ⟨-, e, hdone⟩ := hroom Fetcher.patience hpatient hlt
      cases hcrashed.symm.trans hdone
    · exact heq

/-- Three retries are four attempts. -/
theorem outage_ends_iff_threeRetries :
    (standard.maxRetries < attemptLimit ∧ (Lister.refusing (.unavailable "503")).Failing) ∧
      ∃ waits e, (standard.pursue (.refusing (.unavailable "503")) waits 1 ⟨0, 0⟩ ()).numbers =
          [1, 2, 3, 4] ∧
        (standard.pursue (.refusing (.unavailable "503")) waits 1 ⟨0, 0⟩ ()).step =
          .done (.error (.retriesExhausted 4 e)) :=
  have h32 : standard.maxRetries < attemptLimit := by decide
  have hfail : (Lister.refusing (.unavailable "503")).Failing := fun _ _ => rfl
  ⟨⟨h32, hfail⟩, (outage_ends_iff h32 hfail ⟨0, 0⟩ ()).1.2 (by decide)⟩

/-- With the most retries a word can hold, a fetch from a provider that stays out of reach never
gives up; it breaks down after the last number. -/
theorem outage_mostRetries :
    (¬ ∃ waits result, (RetryPolicy.pursue ⟨0xFFFF_FFFF, ⟨0⟩⟩ (.refusing (.unavailable "boom"))
      waits 1 ⟨0, 0⟩ ()).step = .done result) ∧
    (RetryPolicy.pursue ⟨0xFFFF_FFFF, ⟨0⟩⟩ (.refusing (.unavailable "boom"))
      0xFFFF_FFFE 1 ⟨0, 0⟩ ()).step = .crashed := by
  have hfull : (⟨0xFFFF_FFFF, ⟨0⟩⟩ : RetryPolicy).maxRetries + 1 = attemptLimit := rfl
  have hfail : (Lister.refusing (.unavailable "boom")).Failing := fun _ _ => rfl
  refine ⟨fun ⟨waits, result, hdone⟩ => ?_, ?_⟩
  · exact pursue_ne_done hfull hfail (by decide) waits result hdone
  · have hlast : 1 + 0xFFFF_FFFE = (⟨0xFFFF_FFFF, ⟨0⟩⟩ : RetryPolicy).maxRetries := rfl
    exact (pursue_breaksDown hfull hfail hlast (Nat.le_refl _)).2

end RetryPolicy

end PoolKeeper
