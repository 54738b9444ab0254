import PoolKeeper.Proofs.Calendar
import PoolKeeper.Proofs.Identifiers
import PoolKeeper.Proofs.Machines

/-!
# Machines that boot

A listing asks of each machine that boots when its boot ends. It breaks down if that cannot be told,
and no settings are refused for the length of a boot.

* `Cloud.Foreseeable`, **`Cloud.list_crashed_iff`**: a listing breaks down exactly if the end of a
  boot cannot be told;
* `Cloud.Mild`: bounds on boots and launches; `Cloud.Operation.Within`: what keeps to them;
  `Cloud.Mild.perform`: how they are kept;
* `Cloud.longestSafeBoot`, `Cloud.Mild.foreseeable`: the longest boot whose end can always be told;
  `Cloud.overlong`: one more second, and it cannot; **`Cloud.listing_safe_iff`**.
-/

namespace PoolKeeper

namespace Cloud

variable {c : Cloud} {now : Instant} {m : Machine} {b : Nat}

/-! ## Boots whose end can be told -/

/-- The end of every boot can be told: its length, and when it ends. -/
structure Foreseeable (c : Cloud) : Prop where
  length : c.settings.bootSeconds ≤ longestBoot
  ends : c.machines.All fun _ m => m.state = .pending → ∀ t, m.launched = some t →
    t.addSeconds c.settings.bootSeconds < Instant.endOfTime

theorem bootMachine_eq_none_iff {seconds : Nat} : bootMachine seconds now m = none ↔
    m.state = .pending ∧ ∃ t, m.launched = some t ∧ Instant.endOfTime ≤ t.addSeconds seconds := by
  unfold bootMachine
  split
  · rename_i t hstate hlaunched
    simp only [hstate, hlaunched, true_and, Option.some.injEq]
    split
    · rename_i hend
      exact iff_of_true rfl ⟨t, rfl, hend⟩
    · rename_i hend
      refine iff_of_false (fun h => by cases h) ?_
      rintro ⟨_, rfl, h⟩
      exact hend h
  · rename_i hother
    refine iff_of_false (fun h => by cases h) ?_
    rintro ⟨hstate, t, hlaunched, _⟩
    exact hother t hstate hlaunched

/-- Time passes for all machines exactly if the end of every boot can be told. -/
theorem boot_broken_iff (c : Cloud) (now : Instant) :
    (c.boot now).2 = true ↔ ¬ c.Foreseeable := by
  unfold boot
  split
  · rename_i hlong
    exact iff_of_true rfl fun h => absurd h.length (Nat.not_le.2 hlong)
  · rename_i hlength
    simp only
    cases hbroken : c.firstBroken? now with
    | none =>
      refine iff_of_false (by simp only [Bool.false_eq_true, not_false_eq_true]) fun h => h ?_
      rw [firstBroken?, Option.map_eq_none_iff, List.find?_eq_none] at hbroken
      refine ⟨Nat.not_lt.1 hlength, fun e he hstate t hlaunched => ?_⟩
      by_contra hend
      rw [← Instant.not_le, not_not] at hend
      exact hbroken e he (Option.isNone_iff_eq_none.2
        (bootMachine_eq_none_iff.2 ⟨hstate, t, hlaunched, hend⟩))
    | some id =>
      refine iff_of_true rfl fun h => ?_
      obtain ⟨e, he, rfl⟩ := Option.map_eq_some_iff.1 hbroken
      have hnone : (bootMachine c.settings.bootSeconds now e.2).isNone = true := by
        simpa using List.find?_some he
      obtain ⟨hstate, t, hlaunched, hend⟩ :=
        bootMachine_eq_none_iff.1 (Option.isNone_iff_eq_none.1 hnone)
      exact Instant.not_le.2 (h.ends e (List.mem_of_find?_eq_some he) hstate t hlaunched) hend

/-- **A listing breaks down** exactly if the provider is configured and up and the end of a boot
cannot be told. -/
theorem list_crashed_iff (c : Cloud) (now : Instant) : (c.list now).1 = .error .crashed ↔
    c.poolName.isSome = true ∧ c.listFailures = 0 ∧ ¬ c.Foreseeable := by
  have hsame : Foreseeable { c with listCalls := c.listCalls + 1 } ↔ c.Foreseeable :=
    ⟨fun h => ⟨h.length, h.ends⟩, fun h => ⟨h.length, h.ends⟩⟩
  have hboot := boot_broken_iff { c with listCalls := c.listCalls + 1 } now
  rw [hsame] at hboot
  rw [list]
  simp only
  split
  · rename_i hname
    refine iff_of_false (fun h => by cases h) fun h => ?_
    rw [Option.isNone_iff_eq_none.1 hname] at h
    cases h.1
  · rename_i hname
    rw [Option.isNone_iff_eq_none, ← ne_eq, ← Option.isSome_iff_ne_none] at hname
    split
    · rename_i hdown
      exact iff_of_false (fun h => by cases h) fun h => Nat.ne_of_gt hdown h.2.1
    · rename_i hup
      simp only [hname, Nat.eq_zero_of_not_pos hup, true_and, ← hboot]
      split
      · rename_i hbroken
        exact iff_of_true rfl hbroken
      · rename_i hbroken
        exact iff_of_false (fun h => by cases h) hbroken

/-! ## Bounds on boots and launches -/

theorem settings_boot (c : Cloud) (now : Instant) : (c.boot now).1.settings = c.settings := by
  unfold boot
  split
  · rfl
  · simp only
    split
    · rfl
    · rfl

theorem settings_list (c : Cloud) (now : Instant) : (c.list now).2.settings = c.settings := by
  rw [list]
  simp only
  split
  · rfl
  · split
    · rfl
    · exact settings_boot _ now

theorem settings_start (c : Cloud) (count : Nat) (now : Instant) :
    (c.start count now).2.settings = c.settings := by
  by_cases hname : c.poolName.isSome = true
  · obtain ⟨k, _, hafter, _⟩ := start_cases hname count now
    rw [hafter, launchAll_eq]
  · rw [start, if_pos (by simpa [Option.isSome_iff_ne_none] using hname)]

theorem settings_terminate (c : Cloud) (ids : List String) :
    (c.terminate ids).2.settings = c.settings := by
  unfold terminate
  split
  · rfl
  · split
    · rfl
    · rfl

theorem settings_attach (c : Cloud) (id : String) : (c.attach id).2.settings = c.settings := by
  unfold attach
  split
  · rfl
  · split
    · rfl
    · rfl

theorem settings_detach (c : Cloud) (id : String) : (c.detach id).2.settings = c.settings := by
  unfold detach
  split
  · rfl
  · split
    · rfl
    · rfl

theorem settings_change (c : Cloud) (id : String) (f : Machine → Machine) :
    (c.change id f).2.settings = c.settings := by
  unfold change
  split
  · rfl
  · split
    · rfl
    · rfl

/-- A machine launched before the year 10000, if at all. -/
def Early (m : Machine) : Prop := ∀ t, m.launched = some t → t.second < Instant.fiveDigits

theorem lasting_early : Lasting fun _ m => Early m :=
  fun hkin hearly t ht => hearly t (hkin.launched.symm.trans ht)

/-- Boots take at most so many seconds, and nobody was launched after the year 9999. -/
structure Mild (b : Nat) (c : Cloud) : Prop where
  boots : c.settings.bootSeconds ≤ b
  launches : c.Every fun _ m => Early m

namespace Operation

/-- Settings that are taken let boots last at most so many seconds, and machines are launched in the
years 0 to 9999. -/
def Within (b : Nat) : Operation → Prop
  | configure _ settings now =>
    now.FourDigit ∧ ∀ s, CloudSettings.ofJson settings = .ok s → s.bootSeconds ≤ b
  | register m => ∀ t, m.launched = some t → t.FourDigit
  | start _ now => now.FourDigit
  | _ => True

end Operation

namespace Mild

variable {c' : Cloud}

theorem new (b : Nat) : Mild b {} where
  boots := Nat.zero_le b
  launches := ⟨nofun, nofun⟩

theorem of_settings (h : c.Mild b) (hsame : c'.settings = c.settings)
    (hevery : c'.Every fun _ m => Early m) : c'.Mild b :=
  ⟨hsame ▸ h.boots, hevery⟩

theorem early (hnow : now.FourDigit) (m : Machine) (hm : m.launched = some now) : Early m := by
  intro t ht
  cases hm.symm.trans ht
  exact hnow.second_lt

theorem configure (h : c.Mild b) (poolName : String) {settings : Json}
    (hnow : now.FourDigit) (hb : ∀ s, CloudSettings.ofJson settings = .ok s → s.bootSeconds ≤ b) :
    (c.configure poolName settings now).2.Mild b := by
  have hevery := h.launches.configure poolName settings (early hnow)
  unfold Cloud.configure at hevery ⊢
  split at hevery
  · exact h
  · rename_i s hs
    exact ⟨hb s hs, hevery⟩

/-- **Every operation within the bounds keeps them.** -/
theorem perform (h : c.Mild b) {op : Operation} (hop : op.Within b) : (op.perform c).Mild b := by
  have hevery := h.launches
  cases op with
  | configure poolName settings now => exact h.configure poolName hop.1 hop.2
  | register m => exact ⟨h.boots, hevery.addUnmanaged fun t ht => (hop t ht).second_lt⟩
  | list now => exact h.of_settings (settings_list c now) (hevery.list @lasting_early now)
  | start count now =>
    exact h.of_settings (settings_start c count now) (hevery.start count (early hop))
  | terminate ids =>
    exact h.of_settings (settings_terminate c ids) (hevery.terminate @lasting_early ids)
  | attach id => exact h.of_settings (settings_attach c id) (hevery.attach id)
  | detach id => exact h.of_settings (settings_detach c id) (hevery.detach id)
  | setService id service =>
    exact h.of_settings (settings_change c id _) (hevery.change @lasting_early id fun _ => ⟨rfl, rfl⟩)
  | setMembership id membership =>
    exact h.of_settings (settings_change c id _) (hevery.change @lasting_early id fun _ => ⟨rfl, rfl⟩)
  | failLists count => exact ⟨h.boots, ⟨hevery.machines, hevery.unmanaged⟩⟩
  | failTerminations count => exact ⟨h.boots, ⟨hevery.machines, hevery.unmanaged⟩⟩

theorem performAll (h : c.Mild b) {history : List Operation}
    (hall : ∀ op ∈ history, op.Within b) :
    (history.foldl Operation.perform c).Mild b := by
  induction history generalizing c with
  | nil => exact h
  | cons op rest ih =>
    exact ih (h.perform (hall op List.mem_cons_self)) fun op' hop' =>
      hall op' (List.mem_cons_of_mem op hop')

end Mild

/-! ## The longest boot -/

/-- The longest boot, in seconds, that ends in time whenever it begins before the year 10000. -/
def longestSafeBoot : Nat := (Instant.endOfTime.second - Instant.fiveDigits).toNat

/-- **No boot breaks anything** as long as none takes longer than that. -/
theorem Mild.foreseeable (h : c.Mild b) (hb : b ≤ longestSafeBoot) :
    c.Foreseeable where
  length := (h.boots.trans hb).trans (by decide)
  ends e he _ t ht := by
    have hboots := h.boots.trans hb
    have hlaunch := h.launches.machines e he t ht
    have hroom : (longestSafeBoot : Int) = Instant.endOfTime.second - Instant.fiveDigits := rfl
    rw [Instant.lt_def, Instant.second_addSeconds]
    omega

/-- A machine begins a boot that takes a second longer in the last second of the year 9999. -/
def overlong : List Operation :=
  let last : Instant := ⟨Instant.fiveDigits - 1, 0⟩
  [.configure "web" (.array [.null, .nat (longestSafeBoot + 1)]) last, .start 1 last]

theorem overlong_within (h : longestSafeBoot < b) :
    ∀ op ∈ overlong, op.Within b := by
  have hlast : (⟨Instant.fiveDigits - 1, 0⟩ : Instant).FourDigit := by decide
  intro op hop
  rcases List.mem_pair.1 hop with rfl | rfl
  · refine ⟨hlast, fun s hs => ?_⟩
    cases hs
    exact h
  · exact hlast

theorem overlong_breaks (now : Instant) :
    ((overlong.foldl Operation.perform {}).list now).1 = .error .crashed := by
  with_unfolding_all rfl

/-- **How long boots may take.** -/
theorem listing_safe_iff (b : Nat) :
    b ≤ longestSafeBoot ↔ ∀ history : List Operation, (∀ op ∈ history, op.Within b) →
      ∀ now, ((history.foldl Operation.perform {}).list now).1 ≠ .error .crashed := by
  constructor
  · intro hb history hall now hcrashed
    have hmild := (Mild.new b).performAll hall
    exact ((list_crashed_iff _ now).1 hcrashed).2.2 (hmild.foreseeable hb)
  · intro h
    by_contra hb
    exact h overlong (overlong_within (Nat.not_le.1 hb)) ⟨0, 0⟩ (overlong_breaks _)

end Cloud

end PoolKeeper
