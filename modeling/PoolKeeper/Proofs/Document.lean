import PoolKeeper.Document.Config

/-!
# Documents of configurations

A configuration that is written as a document is read again as it was.

* `Numeral.natural?_ofInt`: counts;
* `Decoder.Reads`: a value that is read as it was written; `Decoder.reads_record`: records;
* `DriverConfig.reads`, `ScaleIn.reads`, `FetchSchedule.reads`, **`PoolConfig.reads`**: parts of
  configurations, and configurations;
* `PoolConfig.Legible`, `PoolConfig.Legible.ofText?_toText`: whole documents.
-/

namespace PoolKeeper

/-! ## Counts -/

theorem Numeral.natOf_toString (n : Nat) : natOf (toString n).toList = n := by
  rw [Nat.toString_eq_repr, Nat.repr_eq_ofList_toDigits, String.toList_ofList]
  exact Nat.ofDigitChars_toDigits (by decide) (by decide)

theorem Numeral.natural?_ofInt {n : Nat} (h : n < wordLimit) : (ofInt n).natural? = some n := by
  have hvalue : natOf (ofInt n).whole = n := natOf_toString n
  have hsign : ¬ (ofInt n).negative = true := by simp [ofInt]
  have hfits : ¬ (ofInt n).negative = true ∧ natOf (ofInt n).whole < wordLimit :=
    ⟨hsign, by rwa [hvalue]⟩
  show (if _ then some (natOf (ofInt n).whole) else none) = _
  rw [if_pos hfits, hvalue]

namespace Decoder

variable {α : Type}

/-- A value that is read from a tree. -/
def Reads (dec : Decoder α) (depth : Nat) (j : Json) (x : α) : Prop :=
  dec depth (.ofJson j) = some x

theorem reads_natBelow {n limit : Nat} (h : n < limit) (hlimit : limit ≤ Numeral.wordLimit)
    (depth : Nat) : (natBelow limit).Reads depth (.nat n) n := by
  show ((Numeral.ofInt n).natural?).filter _ = _
  rw [Numeral.natural?_ofInt (Nat.lt_of_lt_of_le h hlimit)]
  simp [h]

theorem reads_nat {n : Nat} (h : n < Numeral.wordLimit) (depth : Nat) :
    nat.Reads depth (.nat n) n :=
  reads_natBelow h (Nat.le_refl _) depth

theorem membersNamed_ofMembers (name : String) (members : List (String × Json)) :
    membersNamed name (Node.ofMembers members) =
      (members.filter (·.1 = name)).map fun m => Node.ofJson m.2 := by
  induction members with
  | nil => rfl
  | cons m rest ih =>
    obtain ⟨key, value⟩ := m
    rw [Node.ofMembers, membersNamed, List.filterMap_cons, ← membersNamed, ih]
    by_cases h : key = name
    · simp [h]
    · simp [h]

theorem slots?_ofJson (names : List String) (members : List (String × Json)) :
    slots? names (.ofJson (.object members)) = names.mapM (slot? (Node.ofMembers members)) := by
  have hnamed : (Node.ofMembers members).all (·.1.isSome) = true := by
    induction members with
    | nil => rfl
    | cons m rest ih => exact ih
  rw [Node.ofJson, slots?, if_pos hnamed]

/-- A record is read from the slots of its fields. -/
theorem reads_record {names : List String} {build : Nat → List Slot → Option α}
    {members : List (String × Json)} {slots : List Slot} {x : α} {depth : Nat}
    (hslots : names.mapM (slot? (Node.ofMembers members)) = some slots)
    (hbuild : build depth slots = some x) :
    (record names build).Reads (depth + 1) (.object members) x := by
  rw [Reads, record, slots?_ofJson, hslots]
  exact hbuild

end Decoder

/-! ## Parts of configurations -/

theorem VictimPolicy.reads (p : VictimPolicy) (depth : Nat) :
    codec.decode.Reads depth (codec.encode p) p := by
  cases p with
  | oldest => rfl
  | newest => rfl
  | closestToHour => rfl

theorem DriverConfig.reads {d : DriverConfig} {depth : Nat}
    (h : Decoder.json.Reads depth d.settings d.settings) :
    codec.decode.Reads (depth + 1) (codec.encode d) d := by
  have hslots : ["kind", "settings"].mapM (Decoder.slot? (Node.ofMembers
        [("kind", .string d.kind), ("settings", d.settings)])) =
      some [.found (.ofJson (.string d.kind)), .found (.ofJson d.settings)] := by
    simp [Decoder.slot?, Decoder.membersNamed_ofMembers]
  refine Decoder.reads_record hslots ?_
  simp only [Slot.required, Slot.withDefault]
  rw [h, Node.ofJson]
  rfl

theorem ScaleIn.reads {s : ScaleIn} (h : s.margin < Numeral.wordLimit) (depth : Nat) :
    codec.decode.Reads (depth + 1) (codec.encode s) s := by
  have hslots : ["victim_selection_policy", "instance_hour_margin_secs"].mapM (Decoder.slot?
        (Node.ofMembers [("instance_hour_margin_secs", .nat s.margin),
          ("victim_selection_policy", VictimPolicy.codec.encode s.policy)])) =
      some [.found (.ofJson (VictimPolicy.codec.encode s.policy)),
        .found (.ofJson (.nat s.margin))] := by
    simp [Decoder.slot?, Decoder.membersNamed_ofMembers]
  refine Decoder.reads_record hslots ?_
  simp only [Slot.withDefault]
  rw [VictimPolicy.reads, Decoder.reads_nat h]
  rfl

/-- The counts of a retry policy fit their words. -/
structure Retries.Fits (r : Retries) : Prop where
  maxRetries : r.maxRetries < 0x1_0000_0000
  initialBackoff : r.initialBackoffMillis < Numeral.wordLimit

theorem Retries.reads {r : Retries} (h : r.Fits) (depth : Nat) :
    codec.decode.Reads (depth + 1) (codec.encode r) r := by
  have hslots : ["max_retries", "initial_backoff_ms"].mapM (Decoder.slot?
        (Node.ofMembers [("initial_backoff_ms", .nat r.initialBackoffMillis),
          ("max_retries", .nat r.maxRetries)])) =
      some [.found (.ofJson (.nat r.maxRetries)),
        .found (.ofJson (.nat r.initialBackoffMillis))] := by
    simp [Decoder.slot?, Decoder.membersNamed_ofMembers]
  have hretries : Decoder.nat32.Reads depth (.nat r.maxRetries) r.maxRetries :=
    Decoder.reads_natBelow h.maxRetries (by decide) depth
  refine Decoder.reads_record hslots ?_
  simp only [Slot.withDefault]
  rw [hretries, Decoder.reads_nat h.initialBackoff]
  rfl

/-- The counts of a schedule fit their words. -/
structure FetchSchedule.Fits (f : FetchSchedule) : Prop where
  retries : f.retries.Fits
  refreshInterval : f.refreshInterval < Numeral.wordLimit
  reachabilityTimeout : f.reachabilityTimeout < Numeral.wordLimit

theorem FetchSchedule.reads {f : FetchSchedule} (h : f.Fits) (depth : Nat) :
    codec.decode.Reads (depth + 2) (codec.encode f) f := by
  have hslots : ["retries", "refresh_interval_secs", "reachability_timeout_secs"].mapM
        (Decoder.slot? (Node.ofMembers [("reachability_timeout_secs", .nat f.reachabilityTimeout),
          ("refresh_interval_secs", .nat f.refreshInterval),
          ("retries", Retries.codec.encode f.retries)])) =
      some [.found (.ofJson (Retries.codec.encode f.retries)),
        .found (.ofJson (.nat f.refreshInterval)),
        .found (.ofJson (.nat f.reachabilityTimeout))] := by
    simp [Decoder.slot?, Decoder.membersNamed_ofMembers]
  refine Decoder.reads_record hslots ?_
  simp only [Slot.withDefault]
  rw [Retries.reads h.retries, Decoder.reads_nat h.refreshInterval,
    Decoder.reads_nat h.reachabilityTimeout]
  rfl

theorem reads_updateInterval {seconds : Nat} (h : seconds < Numeral.wordLimit) (depth : Nat) :
    updateCodec.decode.Reads (depth + 1) (updateCodec.encode seconds) seconds := by
  have hslots : ["update_interval_secs"].mapM
        (Decoder.slot? (Node.ofMembers [("update_interval_secs", .nat seconds)])) =
      some [.found (.ofJson (.nat seconds))] := by
    simp [Decoder.slot?, Decoder.membersNamed_ofMembers]
  refine Decoder.reads_record hslots ?_
  simp only [Slot.withDefault]
  exact Decoder.reads_nat h depth

/-! ## Configurations -/

/-- The counts of a configuration fit their words, and its driver's settings are read as they are
written. -/
structure PoolConfig.Fits (c : PoolConfig) : Prop where
  desiredSize : ∀ size, c.desiredSize = some size → size < Numeral.wordLimit
  margin : c.scaleIn.margin < Numeral.wordLimit
  fetch : c.fetch.Fits
  updateInterval : c.updateInterval < Numeral.wordLimit
  settings : Decoder.json.Reads (maxDepth - 2) c.driver.settings c.driver.settings

theorem reads_desiredSize {size : Option Nat} (h : ∀ n, size = some n → n < Numeral.wordLimit)
    (depth : Nat) :
    Slot.withDefault none (Decoder.nullable .nat) depth
      ((size.map fun n => Slot.found (.ofJson (.nat n))).getD .missing) = some size := by
  cases size with
  | none => rfl
  | some n =>
    show (Decoder.nat depth (.ofJson (.nat n))).map some = _
    rw [Decoder.reads_nat (h n rfl)]
    rfl

/-- **A configuration is read as it was written.** -/
theorem PoolConfig.reads {c : PoolConfig} (h : c.Fits) :
    codec.decode.Reads maxDepth (codec.encode c) c := by
  let members := (c.desiredSize.elim [] fun n => [("desired_size", .nat n)]) ++
    [("driver", DriverConfig.codec.encode c.driver), ("name", .string c.name),
      ("pool_fetch", FetchSchedule.codec.encode c.fetch),
      ("pool_update", updateCodec.encode c.updateInterval),
      ("scale_in", ScaleIn.codec.encode c.scaleIn)]
  have hencode : codec.encode c = .object members := by
    show Json.object (_ ++ _) = _
    simp only [members]
    cases c.desiredSize with
    | none => rfl
    | some n => rfl
  have hslots : ["name", "driver", "desired_size", "scale_in", "pool_fetch", "pool_update"].mapM
        (Decoder.slot? (Node.ofMembers members)) =
      some [.found (.ofJson (.string c.name)),
        .found (.ofJson (DriverConfig.codec.encode c.driver)),
        (c.desiredSize.map fun n => Slot.found (.ofJson (.nat n))).getD .missing,
        .found (.ofJson (ScaleIn.codec.encode c.scaleIn)),
        .found (.ofJson (FetchSchedule.codec.encode c.fetch)),
        .found (.ofJson (updateCodec.encode c.updateInterval))] := by
    simp only [members]
    cases c.desiredSize with
    | none => simp [Decoder.slot?, Decoder.membersNamed_ofMembers]
    | some n => simp [Decoder.slot?, Decoder.membersNamed_ofMembers]
  rw [hencode]
  refine Decoder.reads_record hslots ?_
  have hdriver : DriverConfig.codec.decode.Reads 126
      (DriverConfig.codec.encode c.driver) c.driver :=
    DriverConfig.reads h.settings
  simp only [Slot.required, reads_desiredSize h.desiredSize]
  simp only [Slot.withDefault]
  rw [hdriver, ScaleIn.reads h.margin, FetchSchedule.reads h.fetch,
    reads_updateInterval h.updateInterval, Node.ofJson]
  rfl

/-- The tree of a document depends on its characters. -/
theorem Codec.read?_toText {α : Type} (c : Codec α) (x : α) :
    Node.read? (c.toText x) = Node.readChars? ((c.encode x).writeAt Json.indented 0) := by
  rw [Node.read?, toText, Json.write, String.toList_ofList]

/-- The document of a configuration is read as the tree that was written. -/
structure PoolConfig.Legible (c : PoolConfig) : Prop where
  fits : c.Fits
  text : Node.read? (codec.toText c) = some (.ofJson (codec.encode c))

theorem PoolConfig.Legible.ofText?_toText {c : PoolConfig} (h : c.Legible) :
    codec.ofText? (codec.toText c) = some c := by
  rw [Codec.ofText?, decode?, h.text, Option.bind_some]
  exact reads h.fits

end PoolKeeper
