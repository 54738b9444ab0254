import Mathlib.Algebra.GroupWithZero.Nat
import PoolKeeper.Fetch.Fetcher

/-!
# The attempts of a fetch

A fetch lists the machines again and again until it has an answer or has been patient enough. List
calls take time of their own: a snapshot is as old as the call that it comes from, and a wait begins
when the call before it has ended.

* `Lister`: list calls that take time; `Provider.lister`: those of a driver at once;
* `RetryPolicy.pursue`: a fetch with the attempts that it makes;
  **`RetryPolicy.run_retrying`**: what a fetch by a driver comes to is what this one comes to;
* `RetryPolicy.nanos_delay`, `RetryPolicy.delay_mono`: the waits;
* `RetryPolicy.begins`: when each attempt begins; `RetryPolicy.conclude`: what the last one means;
* `RetryPolicy.pursue_course`: a fetch whose attempts go a given way;
* **`RetryPolicy.attempts_as_allowed`**: how many attempts there are, when, and what they come to.
-/

namespace PoolKeeper

variable {σ : Type}

/-- The answer is a failure that may pass. -/
def Listing.isPassing : Listing → Bool
  | .error (.refused e) => e.isRetryable
  | _ => false

theorem Listing.exists_of_isPassing {answer : Listing} (h : answer.isPassing = true) :
    ∃ e, answer = .error (.refused e) ∧ e.isRetryable = true := by
  rcases answer with (e | _) | machines
  · exact ⟨e, rfl, h⟩
  · cases h
  · cases h

/-- A list call that was answered: with what, and how long that took. -/
structure Listed where
  answer : Listing
  lasts : Span

/-- List calls that take time. -/
abbrev Lister (σ : Type) := Instant → σ → Listed × σ

/-- The list calls of a driver, answered at once. -/
def Provider.lister (p : Provider σ) (d : DriverId) : Lister σ := fun now s =>
  let (answer, s) := p.list d now s
  (⟨answer, ⟨0⟩⟩, s)

/-- One attempt of a fetch. -/
structure Attempt where
  number : Nat
  begun : Instant
  listed : Listed

def Attempt.ended (a : Attempt) : Instant := a.begun.plus a.listed.lasts

/-- A fetch with the attempts that it made: its last step, when, and what it left outside. -/
structure Pursuit (σ : Type) where
  attempts : List Attempt
  step : FetchStep Nat
  time : Instant
  outside : σ

namespace RetryPolicy

variable (policy : RetryPolicy)

/-- A fetch from an attempt on, through at most so many waits. -/
def pursue (call : Lister σ) : Nat → Nat → Instant → σ → Pursuit σ
  | waits, number, now, s =>
    let (listed, s) := call now s
    let attempt : Attempt := ⟨number, now, listed⟩
    match waits, policy.after number now listed.answer with
    -- the time to wake counts from the beginning of a call that takes none
    | waits + 1, .wait _ next =>
      let rest := pursue call waits next (attempt.ended.plus (policy.delay number)) s
      { rest with attempts := attempt :: rest.attempts }
    | _, step => ⟨[attempt], step, attempt.ended, s⟩

/-- When each attempt begins as long as all before it fail: after the calls and the waits that come
first. -/
def begins (replies : Nat → Listed) (start : Instant) : Nat → Instant
  | 0 => start
  | i + 1 => ((begins replies start i).plus (replies i).lasts).plus (policy.delay (i + 1))

/-- What a fetch comes to with its last attempt. -/
def conclude (attempts : Nat) (begun : Instant) : Listing → FetchStep Nat
  | .ok machines => .done (.ok ⟨machines, begun⟩)
  | .error .crashed => .crashed
  | .error (.refused e) =>
    .done (.error (if e.isRetryable then .retriesExhausted attempts e else .failed e))

variable {policy : RetryPolicy} {call : Lister σ} {number : Nat} {now : Instant} {s s' : σ}
  {listed : Listed} {answer : Listing}

/-! ## Waits -/

theorem nanos_delay (policy : RetryPolicy) (retry : Nat) : (policy.delay retry).nanos =
    min Span.longest.nanos (policy.initialBackoff.nanos * 2 ^ min (retry - 1) 31) := by
  rw [delay, Span.scale, Nat.one_shiftLeft]

/-- **No wait is shorter than the one before.** -/
theorem delay_mono (policy : RetryPolicy) {i j : Nat} (h : i ≤ j) :
    policy.delay i ≤ policy.delay j := by
  show (policy.delay i).nanos ≤ (policy.delay j).nanos
  have hpow : 2 ^ min (i - 1) 31 ≤ 2 ^ min (j - 1) 31 := Nat.pow_le_pow_right (by decide) (by omega)
  have hmul := Nat.mul_le_mul_left policy.initialBackoff.nanos hpow
  rw [nanos_delay, nanos_delay]
  omega

/-! ## Single attempts -/

/-- A fetch is repeated: the failure may pass, retries are left, and the next attempt has a
number. -/
structure Repeats (policy : RetryPolicy) (number : Nat) (answer : Listing) : Prop where
  passing : answer.isPassing = true
  left : number ≤ policy.maxRetries
  counted : number + 1 < attemptLimit

theorem Repeats.after (h : policy.Repeats number answer) (now : Instant) :
    policy.after number now answer = .wait (now.plus (policy.delay number)) (number + 1) := by
  obtain ⟨e, rfl, hretryable⟩ := Listing.exists_of_isPassing h.passing
  rw [RetryPolicy.after, hretryable, if_neg (by decide), if_neg (Nat.not_lt.2 h.left),
    if_neg (Nat.not_le.2 h.counted)]

theorem after_of_full (h : answer.isPassing = true) (hle : number ≤ policy.maxRetries)
    (hfull : attemptLimit ≤ number + 1) : policy.after number now answer = .crashed := by
  obtain ⟨e, rfl, hretryable⟩ := Listing.exists_of_isPassing h
  rw [after, hretryable, if_neg (by decide), if_neg (Nat.not_lt.2 hle), if_pos hfull]

theorem after_eq_conclude (h : answer.isPassing = false ∨ policy.maxRetries < number) :
    policy.after number now answer = conclude number now answer := by
  rcases answer with (e | _) | machines
  · cases hretryable : e.isRetryable with
    | true =>
      have hlt : policy.maxRetries < number :=
        h.resolve_left fun hfalse => absurd hretryable (Bool.eq_false_iff.1 hfalse)
      rw [after, hretryable, if_neg (by decide), if_pos hlt, conclude, hretryable, if_pos rfl]
    | false =>
      rw [after, hretryable, if_pos (by decide), conclude, hretryable, if_neg (by decide)]
  · rfl
  · rfl

theorem conclude_ne_wait {wake : Instant} {next : Nat} :
    conclude number now answer ≠ .wait wake next := by
  rcases answer with (_ | _) | _
  · nofun
  · nofun
  · nofun

theorem after_ne_wait (h : ¬ policy.Repeats number answer) {wake : Instant} {next : Nat} :
    policy.after number now answer ≠ .wait wake next := by
  by_cases hagain : answer.isPassing = true ∧ number ≤ policy.maxRetries
  · have hfull : attemptLimit ≤ number + 1 :=
      Nat.not_lt.1 fun hroom => h ⟨hagain.1, hagain.2, hroom⟩
    rw [after_of_full hagain.1 hagain.2 hfull]
    nofun
  · have hlast := (Decidable.not_and_iff_not_or_not.1 hagain).imp Bool.eq_false_iff.2 Nat.not_le.1
    rw [after_eq_conclude hlast]
    exact conclude_ne_wait

/-- A fetch breaks down with a list call, or when its attempts are counted out. -/
theorem after_eq_crashed (h : policy.after number now answer = .crashed) :
    answer = .error .crashed ∨ answer.isPassing = true ∧ attemptLimit ≤ number + 1 := by
  rcases answer with (e | _) | machines
  · rw [after] at h
    split at h
    · cases h
    · rename_i hpassing
      split at h
      · cases h
      · split at h
        · exact .inr ⟨by simpa [Listing.isPassing] using hpassing, ‹_›⟩
        · cases h
  · exact .inl rfl
  · cases h

theorem pursue_of_repeats (hcall : call now s = (listed, s'))
    (h : policy.Repeats number listed.answer) (waits : Nat) :
    policy.pursue call (waits + 1) number now s =
      let rest := policy.pursue call waits (number + 1)
        ((now.plus listed.lasts).plus (policy.delay number)) s'
      { rest with attempts := ⟨number, now, listed⟩ :: rest.attempts } := by
  rw [pursue, hcall]
  simp only [h.after]
  rfl

theorem pursue_of_not_repeats (hcall : call now s = (listed, s'))
    (h : ¬ policy.Repeats number listed.answer) (waits : Nat) :
    policy.pursue call waits number now s = ⟨[⟨number, now, listed⟩],
      policy.after number now listed.answer, now.plus listed.lasts, s'⟩ := by
  unfold pursue
  simp only [hcall]
  split
  · rename_i hwait
    exact absurd hwait (after_ne_wait h)
  · rfl

theorem pursue_eq_conclude (hcall : call now s = (listed, s'))
    (h : listed.answer.isPassing = false ∨ policy.maxRetries < number) (waits : Nat) :
    policy.pursue call waits number now s = ⟨[⟨number, now, listed⟩],
      conclude number now listed.answer, now.plus listed.lasts, s'⟩ := by
  have hnot : ¬ policy.Repeats number listed.answer := fun hagain =>
    h.elim (fun hfalse => by cases hfalse.symm.trans hagain.passing)
      fun hlt => absurd hagain.left (Nat.not_le.2 hlt)
  rw [pursue_of_not_repeats hcall hnot, after_eq_conclude h]

/-! ## Fetches by a driver -/

theorem finish_of_not_repeats (f : Fetcher σ Nat) (h : ¬ policy.Repeats number answer)
    (waits : Nat) : f.finish waits (policy.after number now answer) now s =
      ⟨policy.after number now answer, now, s⟩ := by
  unfold Fetcher.finish
  split
  · rename_i hwait
    exact absurd hwait (after_ne_wait h)
  · rfl

theorem finish_retrying (p : Provider σ) (d : DriverId) (waits : Nat) (hnow : now.Ordinary) :
    (Fetcher.retrying p d policy).finish waits (policy.after number now (p.list d now s).1) now
        (p.list d now s).2 =
      let run := policy.pursue (p.lister d) waits number now s
      ⟨run.step, run.time, run.outside⟩ := by
  induction waits generalizing number now s with
  | zero =>
    simp only [Fetcher.finish, pursue, Provider.lister, Attempt.ended, Instant.plus_zero hnow]
  | succ waits ih =>
    have hcall : p.lister d now s = (⟨(p.list d now s).1, ⟨0⟩⟩, (p.list d now s).2) := rfl
    by_cases h : policy.Repeats number (p.list d now s).1
    · rw [pursue_of_repeats hcall h, h.after, Instant.plus_zero hnow, Fetcher.finish,
        Instant.latest_plus]
      exact ih (Instant.ordinary_plus now _)
    · rw [pursue_of_not_repeats hcall h, finish_of_not_repeats _ h, Instant.plus_zero hnow]

/-- **What a fetch by a driver comes to.** -/
theorem run_retrying (p : Provider σ) (d : DriverId) (hnow : now.Ordinary) :
    (Fetcher.retrying p d policy).run now s =
      let run := policy.pursue (p.lister d) Fetcher.patience 1 now s
      ⟨run.step, run.time, run.outside⟩ :=
  finish_retrying p d Fetcher.patience hnow

/-! ## The course of a fetch -/

section Course

variable {replies : Nat → Listed} {states : Nat → σ} {start : Instant}

theorem begins_eq (hstart : start.Ordinary) (i : Nat) :
    policy.begins replies start i = start.plus ⟨((List.range i).map fun j =>
      (replies j).lasts.nanos + (policy.delay (j + 1)).nanos).sum⟩ := by
  induction i with
  | zero => exact (Instant.plus_zero hstart).symm
  | succ i ih =>
    rw [begins, ih, Instant.plus_plus, Instant.plus_plus, List.range_succ, List.map_append,
      List.sum_append, List.map_singleton, List.sum_singleton]

/-- A fetch is repeated until an answer is its last, or until the last retry. -/
theorem exists_retries (replies : Nat → Listed) (n : Nat) : ∃ retries ≤ n,
    (∀ i < retries, (replies i).answer.isPassing = true) ∧
      ((replies retries).answer.isPassing = true → retries = n) := by
  induction n with
  | zero => exact ⟨0, Nat.le_refl 0, fun i hi => absurd hi (Nat.not_lt_zero i), fun _ => rfl⟩
  | succ n ih =>
    obtain ⟨retries, hle, hpassing, hlast⟩ := ih
    cases h : (replies retries).answer.isPassing with
    | false => exact ⟨retries, by omega, hpassing, fun htrue => by rw [h] at htrue; cases htrue⟩
    | true =>
      obtain rfl := hlast h
      refine ⟨retries + 1, Nat.le_refl _, fun i hi => ?_, fun _ => rfl⟩
      rcases Nat.lt_succ_iff_lt_or_eq.1 hi with hlt | rfl
      · exact hpassing i hlt
      · exact h

/-- **The rest of a fetch**, from an attempt on that is `n` before the last. -/
theorem pursue_course (hN : policy.maxRetries + 1 < attemptLimit)
    (hcall : ∀ i, call (policy.begins replies start i) (states i) = (replies i, states (i + 1)))
    {retries : Nat} (hle : retries ≤ policy.maxRetries)
    (hpassing : ∀ i < retries, (replies i).answer.isPassing = true)
    (hlast : (replies retries).answer.isPassing = true → retries = policy.maxRetries)
    {i n waits : Nat} (hi : i + n = retries) (hwaits : n ≤ waits) :
    policy.pursue call waits (i + 1) (policy.begins replies start i) (states i) =
      ⟨(List.range' i (n + 1)).map fun j => ⟨j + 1, policy.begins replies start j, replies j⟩,
        conclude (retries + 1) (policy.begins replies start retries) (replies retries).answer,
        (policy.begins replies start retries).plus (replies retries).lasts,
        states (retries + 1)⟩ := by
  induction n generalizing i waits with
  | zero =>
    obtain rfl : i = retries := hi
    have hend : (replies i).answer.isPassing = false ∨ policy.maxRetries < i + 1 := by
      cases h : (replies i).answer.isPassing with
      | false => exact .inl rfl
      | true => exact .inr (by rw [hlast h]; exact Nat.lt_succ_self _)
    rw [pursue_eq_conclude (hcall i) hend]
    rfl
  | succ n ih =>
    obtain ⟨waits, rfl⟩ := Nat.exists_eq_add_of_lt hwaits
    have hagain : policy.Repeats (i + 1) (replies i).answer :=
      ⟨hpassing i (by omega), by omega, by omega⟩
    have hrest := @ih (i + 1) (n + waits) (by omega) (by omega)
    rw [begins] at hrest
    rw [pursue_of_repeats (hcall i) hagain, hrest, List.range'_succ]
    rfl

end Course

/-- **A fetch makes exactly the attempts and the waits that its policy allows.** Whatever the calls
answer, it makes one attempt and then as many retries as there are passing failures in a row, at
most as many as allowed; each begins as long after the end of the call before it as the policy says.
It comes to what its last attempt means, and a snapshot is as old as that attempt. -/
theorem attempts_as_allowed (hN : policy.maxRetries + 1 < attemptLimit) (call : Lister σ)
    (replies : Nat → Listed) (states : Nat → σ) (start : Instant)
    (hcall : ∀ i, call (policy.begins replies start i) (states i) = (replies i, states (i + 1))) :
    (∀ i, (policy.delay i).nanos =
      min Span.longest.nanos (policy.initialBackoff.nanos * 2 ^ min (i - 1) 31)) ∧
    (∀ i j, i ≤ j → policy.delay i ≤ policy.delay j) ∧
    (start.Ordinary → ∀ i, policy.begins replies start i = start.plus ⟨((List.range i).map fun j =>
      (replies j).lasts.nanos + (policy.delay (j + 1)).nanos).sum⟩) ∧
    ∃ retries ≤ policy.maxRetries,
      (∀ i < retries, (replies i).answer.isPassing = true) ∧
      ((replies retries).answer.isPassing = true → retries = policy.maxRetries) ∧
      (∀ waits, policy.maxRetries ≤ waits → policy.pursue call waits 1 start (states 0) =
        ⟨(List.range (retries + 1)).map fun i => ⟨i + 1, policy.begins replies start i, replies i⟩,
          conclude (retries + 1) (policy.begins replies start retries) (replies retries).answer,
          (policy.begins replies start retries).plus (replies retries).lasts,
          states (retries + 1)⟩) ∧
      ∀ (p : Provider σ) (d : DriverId), call = p.lister d → start.Ordinary →
        (Fetcher.retrying p d policy).run start (states 0) =
          ⟨conclude (retries + 1) (policy.begins replies start retries) (replies retries).answer,
            (policy.begins replies start retries).plus (replies retries).lasts,
            states (retries + 1)⟩ := by
  obtain ⟨retries, hle, hpassing, hlast⟩ := exists_retries replies policy.maxRetries
  have hcourse : ∀ waits, policy.maxRetries ≤ waits →
      policy.pursue call waits 1 start (states 0) =
        ⟨(List.range (retries + 1)).map fun i => ⟨i + 1, policy.begins replies start i, replies i⟩,
          conclude (retries + 1) (policy.begins replies start retries) (replies retries).answer,
          (policy.begins replies start retries).plus (replies retries).lasts,
          states (retries + 1)⟩ := fun waits hwaits => by
    rw [List.range_eq_range']
    exact pursue_course hN hcall hle hpassing hlast (Nat.zero_add retries) (by omega)
  refine ⟨nanos_delay policy, fun _ _ => delay_mono policy, begins_eq,
    retries, hle, hpassing, hlast, hcourse, fun p d hp hstart => ?_⟩
  have hpatience : policy.maxRetries ≤ Fetcher.patience :=
    Nat.le_of_lt (Nat.lt_trans (Nat.lt_succ_self _) hN)
  rw [run_retrying p d hstart, ← hp, hcourse Fetcher.patience hpatience]

/-- A call that takes a second fails, and then one that takes none; the third answer counts. -/
theorem attempts_as_allowed_twoFailures :
    let policy : RetryPolicy := ⟨2, .ofSeconds 2⟩
    let replies : Nat → Listed := fun
      | 0 => ⟨.error (.refused (.unavailable "boom")), .ofSeconds 1⟩
      | 1 => ⟨.error (.refused (.rateLimited "slow down")), ⟨0⟩⟩
      | _ => ⟨.ok [], ⟨0⟩⟩
    policy.maxRetries + 1 < attemptLimit ∧
      policy.pursue (fun _ i => (replies i, i + 1)) 2 1 ⟨100, 5⟩ 0 =
        ⟨[⟨1, ⟨100, 5⟩, replies 0⟩, ⟨2, ⟨103, 5⟩, replies 1⟩, ⟨3, ⟨107, 5⟩, replies 2⟩],
          .done (.ok ⟨[], ⟨107, 5⟩⟩), ⟨107, 5⟩, 3⟩ := by
  intro policy replies
  have hN : policy.maxRetries + 1 < attemptLimit := by decide
  obtain ⟨-, -, -, retries, hle, -, hlast, hcourse, -⟩ := attempts_as_allowed hN
    (fun _ i => (replies i, i + 1)) replies id ⟨100, 5⟩ fun _ => rfl
  obtain rfl : retries = 2 := match retries, hle, hlast with
    | 0, _, hlast => absurd (hlast rfl) (by decide)
    | 1, _, hlast => absurd (hlast rfl) (by decide)
    | 2, _, _ => rfl
  have h1 : policy.begins replies ⟨100, 5⟩ 1 = ⟨103, 5⟩ := by decide
  have h2 : policy.begins replies ⟨100, 5⟩ 2 = ⟨107, 5⟩ := by decide
  have hend : (⟨107, 5⟩ : Instant).plus (replies 2).lasts = ⟨107, 5⟩ := by decide
  refine ⟨hN, (hcourse 2 (Nat.le_refl 2)).trans ?_⟩
  simp only [show List.range 3 = [0, 1, 2] from rfl, List.map_cons, List.map_nil, h1, h2,
    hend]
  rfl

end RetryPolicy

end PoolKeeper
