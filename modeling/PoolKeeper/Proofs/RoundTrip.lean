import PoolKeeper.Document.Event
import PoolKeeper.Proofs.JsonValue
import PoolKeeper.Proofs.TimeText

/-!
# Documents are read as they were written

* `Json.Plain`, `Instant.Writable`: free JSON and times that are written exactly;
* `Machine.Plain.reads`, `Pool.Plain.reads`, `Scheduled.Plain.reads`: machines, pools and scheduled
  terminations;
* `Event.kind?_ofJson`, `Event.Plain.reads`: events, whose kind stands among their fields;
* `PoolConfig.Plain.reads`: configurations;
* `Codec.RoundTrips`, **`Codec.documents_round_trip`**: whole documents.
-/

namespace PoolKeeper

/-! ## Parts of a value -/

namespace Json

theorem membersExact_iff {members : List (String × Json)} :
    MembersExact members ↔ ∀ m ∈ members, m.2.Exact := by
  induction members with
  | nil => simp [MembersExact]
  | cons m rest ih => simp [MembersExact, ih]

theorem membersExact_append {members more : List (String × Json)} :
    MembersExact (members ++ more) ↔ MembersExact members ∧ MembersExact more := by
  simp only [membersExact_iff, List.mem_append, or_imp, forall_and]

theorem itemsExact_iff {items : List Json} : ItemsExact items ↔ ∀ x ∈ items, x.Exact := by
  induction items with
  | nil => simp [ItemsExact]
  | cons x rest ih => simp [ItemsExact, ih]

theorem levels_member {members : List (String × Json)} {m : String × Json} (h : m ∈ members) :
    m.2.levels < (object members).levels := by
  rw [levels, Nat.lt_succ_iff]
  induction members with
  | nil => cases h
  | cons first rest ih =>
    rw [levelsOfMembers]
    rcases List.mem_cons.1 h with rfl | h
    · exact Nat.le_max_left _ _
    · exact Nat.le_trans (ih h) (Nat.le_max_right _ _)

theorem levels_item {items : List Json} {x : Json} (h : x ∈ items) :
    x.levels < (array items).levels := by
  rw [levels, Nat.lt_succ_iff]
  induction items with
  | nil => cases h
  | cons first rest ih =>
    rw [levelsOfItems]
    rcases List.mem_cons.1 h with rfl | h
    · exact Nat.le_max_left _ _
    · exact Nat.le_trans (ih h) (Nat.le_max_right _ _)

theorem exact_nat {n : Nat} (h : n < Numeral.wordLimit) : (nat n).Exact := by
  rw [Numeral.wordLimit] at h
  rw [nat, Exact]
  omega

/-- Free JSON that is written exactly: its numbers are whole, its members in order. -/
structure Plain (x : Json) : Prop where
  exact : x.Exact
  inOrder : x.InOrder

end Json

namespace Decoder

variable {α : Type}

theorem reads_json {x : Json} (h : x.Plain) {depth : Nat} (hlevels : x.levels ≤ depth) :
    json.Reads depth x x :=
  Node.json?_ofJson x depth h.exact h.inOrder hlevels

theorem reads_list {c : Codec α} {xs : List α} {depth : Nat}
    (h : ∀ x ∈ xs, c.decode.Reads depth (c.encode x) x) :
    (Codec.list c).decode.Reads (depth + 1) ((Codec.list c).encode xs) xs := by
  show (Node.ofItems (xs.map c.encode)).mapM (c.decode depth) = some xs
  induction xs with
  | nil => rfl
  | cons x rest ih =>
    have hx : c.decode depth (.ofJson (c.encode x)) = some x := h x List.mem_cons_self
    have hrest := ih fun y hy => h y (List.mem_cons_of_mem _ hy)
    rw [List.map_cons, Node.ofItems, List.mapM_cons, hx, hrest]
    rfl

end Decoder

/-! ## Times -/

/-- A time that is written with a year of four digits, outside leap seconds. -/
structure Instant.Writable (t : Instant) : Prop where
  ordinary : t.Ordinary
  year : 0 ≤ t.date.year ∧ t.date.year ≤ 9999

theorem Instant.Writable.reads {t : Instant} (h : t.Writable) (depth : Nat) :
    Decoder.instant.Reads depth (.string t.toText) t := by
  have hyear : yearInRange t.date.year = true := by
    have hrange := h.year
    simp only [yearInRange, Bool.and_eq_true, decide_eq_true_eq]
    omega
  simp only [Decoder.Reads, Decoder.instant, Node.ofJson, Decoder.string, Option.bind_some,
    ofText?_toText (.inl h.ordinary), if_pos hyear]

/-! ## Machines -/

theorem MachineState.reads (s : MachineState) (depth : Nat) :
    codec.decode.Reads depth (codec.encode s) s := by
  cases s with
  | requested => rfl
  | pending => rfl
  | running => rfl
  | terminating => rfl
  | terminated => rfl

theorem ServiceState.reads (s : ServiceState) (depth : Nat) :
    codec.decode.Reads depth (codec.encode s) s := by
  cases s with
  | booting => rfl
  | inService => rfl
  | outOfService => rfl
  | unknown => rfl

theorem Membership.reads (m : Membership) (depth : Nat) :
    codec.decode.Reads (depth + 1) (codec.encode m) m := by
  have hslots : ["active", "evictable"].mapM (Decoder.slot? (Node.ofMembers
        [("active", .bool m.active), ("evictable", .bool m.evictable)])) =
      some [.found (.bool m.active), .found (.bool m.evictable)] := by
    simp [Decoder.slot?, Decoder.membersNamed_ofMembers, Node.ofJson]
  exact Decoder.reads_record hslots rfl

namespace Machine

/-- A machine that is written exactly. -/
structure Plain (m : Machine) : Prop where
  launched : ∀ t, m.launched = some t → t.Writable
  metadata : m.metadata.Plain

variable {m : Machine}

theorem Plain.exact (h : m.Plain) : (codec.encode m).Exact := by
  have hlaunched : (Codec.instant.encodeOption m.launched).Exact := by
    cases m.launched with
    | none => trivial
    | some t => trivial
  have hmembership : (Membership.codec.encode m.membership).Exact := ⟨trivial, trivial, trivial⟩
  have hmetadata : Json.MembersExact
      (if m.metadata.isNull then [] else [("metadata", m.metadata)]) := by
    split
    · trivial
    · exact ⟨h.metadata.exact, trivial⟩
  show Json.MembersExact (_ ++ _ ++ _)
  rw [Json.membersExact_append, Json.membersExact_append]
  exact ⟨⟨⟨trivial, hlaunched, trivial, hmembership, trivial⟩, hmetadata⟩, trivial, trivial⟩

theorem reads_launched {launched : Option Instant} (h : ∀ t, launched = some t → t.Writable)
    (depth : Nat) :
    Decoder.instant.nullable depth (.ofJson (Codec.instant.encodeOption launched)) =
      some launched := by
  cases launched with
  | none => rfl
  | some t =>
    have hread : Decoder.instant depth (.ofJson (.string t.toText)) = some t :=
      (h t rfl).reads depth
    rw [Node.ofJson] at hread
    simp only [Codec.encodeOption, Codec.instant, Node.ofJson, Decoder.nullable, hread,
      Option.map_some]

/-- **A machine is read as it was written.** -/
theorem Plain.reads (h : m.Plain) {depth : Nat} (hlevels : (codec.encode m).levels ≤ depth) :
    codec.decode.Reads depth (codec.encode m) m := by
  let metadata := if m.metadata.isNull then [] else [("metadata", m.metadata)]
  let members := [("id", .string m.id), ("launch_time", Codec.instant.encodeOption m.launched),
    ("machine_state", MachineState.codec.encode m.state),
    ("membership_status", Membership.codec.encode m.membership)] ++ metadata ++
    [("service_state", ServiceState.codec.encode m.service)]
  have hencode : codec.encode m = .object members := rfl
  have hslots : ["id", "machine_state", "service_state", "membership_status", "launch_time",
        "metadata"].mapM (Decoder.slot? (Node.ofMembers members)) =
      some [.found (.ofJson (.string m.id)),
        .found (.ofJson (MachineState.codec.encode m.state)),
        .found (.ofJson (ServiceState.codec.encode m.service)),
        .found (.ofJson (Membership.codec.encode m.membership)),
        .found (.ofJson (Codec.instant.encodeOption m.launched)),
        if m.metadata.isNull then .missing else .found (.ofJson m.metadata)] := by
    cases hnull : m.metadata.isNull with
    | true => simp [members, metadata, hnull, Decoder.slot?, Decoder.membersNamed_ofMembers]
    | false => simp [members, metadata, hnull, Decoder.slot?, Decoder.membersNamed_ofMembers]
  rw [hencode] at hlevels ⊢
  have hdeep : (Membership.codec.encode m.membership).levels < (Json.object members).levels :=
    Json.levels_member (m := ("membership_status", _)) (by simp [members])
  have hone : (Membership.codec.encode m.membership).levels = 1 := rfl
  obtain ⟨depth, rfl⟩ : ∃ k, depth = k + 2 := ⟨depth - 2, by omega⟩
  have hstate := MachineState.reads m.state (depth + 1)
  have hservice := ServiceState.reads m.service (depth + 1)
  have hmembership := Membership.reads m.membership depth
  have hmetadata : (if m.metadata.isNull then Slot.missing
      else .found (.ofJson m.metadata)).withDefault .null .json (depth + 1) = some m.metadata := by
    cases hnull : m.metadata.isNull with
    | true =>
      have hvalue : m.metadata = .null := by
        revert hnull
        cases m.metadata with
        | null => exact fun _ => rfl
        | _ => exact fun h => by cases h
      rw [hvalue]
      rfl
    | false =>
      have hlower : m.metadata.levels < (Json.object members).levels :=
        Json.levels_member (m := ("metadata", _)) (by simp [members, metadata, hnull])
      exact Decoder.reads_json h.metadata (by omega)
  refine Decoder.reads_record hslots ?_
  simp only [Slot.required, Slot.optional, hmetadata, reads_launched h.launched]
  simp only [Slot.withDefault, Node.ofJson, Decoder.string]
  rw [hstate, hservice, hmembership]
  rfl

end Machine

/-! ## Pools and scheduled terminations -/

/-- A pool that is written exactly. -/
structure Pool.Plain (p : Pool) : Prop where
  machines : ∀ m ∈ p.machines, m.Plain
  takenAt : p.takenAt.Writable

namespace Pool

variable {p : Pool}

theorem Plain.exact (h : p.Plain) : (codec.encode p).Exact := by
  refine ⟨?_, trivial, trivial⟩
  show Json.ItemsExact (p.machines.map Machine.codec.encode)
  rw [Json.itemsExact_iff]
  intro x hx
  obtain ⟨m, hm, rfl⟩ := List.mem_map.1 hx
  exact (h.machines m hm).exact

/-- **A pool is read as it was written.** -/
theorem Plain.reads (h : p.Plain) {depth : Nat} (hlevels : (codec.encode p).levels ≤ depth) :
    codec.decode.Reads depth (codec.encode p) p := by
  let members := [("machines", (Codec.list Machine.codec).encode p.machines),
    ("timestamp", .string p.takenAt.toText)]
  have hencode : codec.encode p = .object members := rfl
  have hslots : ["machines", "timestamp"].mapM (Decoder.slot? (Node.ofMembers members)) =
      some [.found (.ofJson ((Codec.list Machine.codec).encode p.machines)),
        .found (.ofJson (.string p.takenAt.toText))] := by
    simp [members, Decoder.slot?, Decoder.membersNamed_ofMembers]
  rw [hencode] at hlevels ⊢
  have hlist : ((Codec.list Machine.codec).encode p.machines).levels <
      (Json.object members).levels :=
    Json.levels_member (m := ("machines", _)) (by simp [members])
  have hitems : ∀ m ∈ p.machines, (Machine.codec.encode m).levels <
      ((Codec.list Machine.codec).encode p.machines).levels :=
    fun m hm => Json.levels_item (List.mem_map_of_mem hm)
  have hsome : 0 < ((Codec.list Machine.codec).encode p.machines).levels := Nat.succ_pos _
  obtain ⟨depth, rfl⟩ : ∃ k, depth = k + 2 := ⟨depth - 2, by omega⟩
  have hmachines : (Codec.list Machine.codec).decode (depth + 1)
      (.ofJson ((Codec.list Machine.codec).encode p.machines)) = some p.machines :=
    Decoder.reads_list fun m hm => (h.machines m hm).reads (by have hm := hitems m hm; omega)
  have htime : Decoder.instant (depth + 1) (.ofJson (.string p.takenAt.toText)) = some p.takenAt :=
    h.takenAt.reads _
  refine Decoder.reads_record hslots ?_
  simp only [Slot.required, hmachines, htime]
  rfl

end Pool

/-- A scheduled termination that is written exactly. -/
structure Scheduled.Plain (s : Scheduled) : Prop where
  machine : s.machine.Plain
  time : s.time.Writable

namespace Scheduled

variable {s : Scheduled}

theorem Plain.exact (h : s.Plain) : (codec.encode s).Exact := ⟨h.machine.exact, trivial, trivial⟩

/-- **A scheduled termination is read as it was written.** -/
theorem Plain.reads (h : s.Plain) {depth : Nat} (hlevels : (codec.encode s).levels ≤ depth) :
    codec.decode.Reads depth (codec.encode s) s := by
  let members := [("machine", Machine.codec.encode s.machine),
    ("termination_time", .string s.time.toText)]
  have hencode : codec.encode s = .object members := rfl
  have hslots : ["machine", "termination_time"].mapM (Decoder.slot? (Node.ofMembers members)) =
      some [.found (.ofJson (Machine.codec.encode s.machine)),
        .found (.ofJson (.string s.time.toText))] := by
    simp [members, Decoder.slot?, Decoder.membersNamed_ofMembers]
  rw [hencode] at hlevels ⊢
  have hlower : (Machine.codec.encode s.machine).levels < (Json.object members).levels :=
    Json.levels_member (m := ("machine", _)) (by simp [members])
  obtain ⟨depth, rfl⟩ : ∃ k, depth = k + 1 := ⟨depth - 1, by omega⟩
  have hmachine : Machine.codec.decode depth (.ofJson (Machine.codec.encode s.machine)) =
      some s.machine := h.machine.reads (by omega)
  have htime : Decoder.instant depth (.ofJson (.string s.time.toText)) = some s.time :=
    h.time.reads _
  refine Decoder.reads_record hslots ?_
  simp only [Slot.required, hmachine, htime]
  rfl

end Scheduled

/-! ## Events -/

theorem Severity.reads (s : Severity) (depth : Nat) :
    Event.severity depth (.ofJson (codec.encode s)) = some s := by
  cases depth with
  | zero =>
    cases s with
    | info => rfl
    | warning => rfl
    | error => rfl
  | succ depth =>
    cases s with
    | info => rfl
    | warning => rfl
    | error => rfl

namespace Event

/-- An event that is written exactly. -/
def Plain : Event → Prop
  | alert _ _ _ time => time.Writable
  | terminationScheduled _ time => time.Writable
  | desiredSizeChanged before after =>
    (∀ n, before = some n → n < Numeral.wordLimit) ∧ after < Numeral.wordLimit
  | _ => True

/-- The kind of an event as it is written. -/
def kindText : Event → String
  | alert .. => "Alert"
  | machinesStarted _ => "MachinesStarted"
  | machinesTerminated _ => "MachinesTerminated"
  | terminationScheduled .. => "TerminationScheduled"
  | desiredSizeChanged .. => "DesiredSizeChanged"
  | controllerStateChanged .. => "ControllerStateChanged"

/-- The members of a written event, but its kind. -/
def fieldMembers : Event → List (String × Json)
  | alert topic severity message time => [("at", .string time.toText), ("message", .string message),
      ("severity", Severity.codec.encode severity), ("topic", .string topic)]
  | machinesStarted machines => [("machines", idList machines)]
  | machinesTerminated machines => [("machines", idList machines)]
  | terminationScheduled machine time => [("at", .string time.toText), ("machine", .string machine)]
  | desiredSizeChanged before after =>
    [("from", (before.map Json.nat).getD .null), ("to", .nat after)]
  | controllerStateChanged before after => [("from", .string before), ("to", .string after)]

theorem encode_eq (e : Event) :
    codec.encode e = .object (e.fieldMembers ++ [("type", .string e.kindText)]) := by
  cases e with
  | _ => rfl

/-- The kind of a written event is found among its members. -/
theorem kind?_ofJson {members : List (String × Json)} (h : ∀ m ∈ members, m.1 ≠ "type")
    (kind : String) :
    kind? (.ofJson (.object (members ++ [("type", .string kind)]))) =
      some (kind, .ofJson (.object members)) := by
  have hnamed : Decoder.membersNamed "type"
      (Node.ofMembers (members ++ [("type", .string kind)])) = [.string (some kind)] := by
    have hnone : members.filter (fun m => decide (m.1 = "type")) = [] := by
      rw [List.filter_eq_nil_iff]
      intro m hm
      simp [h m hm]
    rw [Decoder.membersNamed_ofMembers, List.filter_append, hnone]
    rfl
  have hothers : (Node.ofMembers (members ++ [("type", .string kind)])).filter
      (fun m => m.1 != some "type") = Node.ofMembers members := by
    clear hnamed
    induction members with
    | nil => rfl
    | cons m rest ih =>
      obtain ⟨name, x⟩ := m
      have hname : name ≠ "type" := h (name, x) List.mem_cons_self
      rw [List.cons_append, Node.ofMembers, Node.ofMembers,
        List.filter_cons_of_pos (by simp [hname]), ih fun m hm => h m (List.mem_cons_of_mem _ hm)]
  rw [Node.ofJson, kind?, hnamed]
  simp only [hothers, Node.ofJson]

theorem Plain.exact {e : Event} (h : e.Plain) : (codec.encode e).Exact := by
  have hids : ∀ ids, (idList ids).Exact := by
    intro ids
    show Json.ItemsExact (ids.map .string)
    rw [Json.itemsExact_iff]
    intro x hx
    obtain ⟨id, _, rfl⟩ := List.mem_map.1 hx
    trivial
  cases e with
  | alert topic severity message time =>
    exact ⟨trivial, trivial, trivial, trivial, trivial, trivial⟩
  | machinesStarted machines => exact ⟨hids machines, trivial, trivial⟩
  | machinesTerminated machines => exact ⟨hids machines, trivial, trivial⟩
  | terminationScheduled machine time => exact ⟨trivial, trivial, trivial, trivial⟩
  | desiredSizeChanged before after =>
    refine ⟨?_, Json.exact_nat h.2, trivial, trivial⟩
    cases before with
    | none => trivial
    | some n => exact Json.exact_nat (h.1 n rfl)
  | controllerStateChanged before after => exact ⟨trivial, trivial, trivial, trivial⟩

theorem names_pairwise (e : Event) :
    ((e.fieldMembers ++ [("type", Json.string e.kindText)]).map Prod.fst).Pairwise (· < ·) := by
  cases e with
  | alert topic severity message time =>
    show ["at", "message", "severity", "topic", "type"].Pairwise (· < ·)
    decide
  | machinesStarted machines =>
    show ["machines", "type"].Pairwise (· < ·)
    decide
  | machinesTerminated machines =>
    show ["machines", "type"].Pairwise (· < ·)
    decide
  | terminationScheduled machine time =>
    show ["at", "machine", "type"].Pairwise (· < ·)
    decide
  | desiredSizeChanged before after =>
    show ["from", "to", "type"].Pairwise (· < ·)
    decide
  | controllerStateChanged before after =>
    show ["from", "to", "type"].Pairwise (· < ·)
    decide

theorem inOrder (e : Event) : (codec.encode e).InOrder := by
  have hids : ∀ ids, (idList ids).InOrder := by
    intro ids
    show Json.ItemsInOrder (ids.map .string)
    induction ids with
    | nil => trivial
    | cons id rest ih => exact ⟨trivial, ih⟩
  rw [encode_eq]
  refine ⟨List.pairwise_map.1 e.names_pairwise, ?_⟩
  cases e with
  | alert topic severity message time =>
    exact ⟨trivial, trivial, trivial, trivial, trivial, trivial⟩
  | machinesStarted machines => exact ⟨hids machines, trivial, trivial⟩
  | machinesTerminated machines => exact ⟨hids machines, trivial, trivial⟩
  | terminationScheduled machine time => exact ⟨trivial, trivial, trivial, trivial⟩
  | desiredSizeChanged before after =>
    refine ⟨?_, trivial, trivial, trivial⟩
    cases before with
    | none => trivial
    | some n => trivial
  | controllerStateChanged before after => exact ⟨trivial, trivial, trivial, trivial⟩

/-! ### Fields -/

theorem reads_alertFields (topic : String) (severity : Severity) (message : String) {time : Instant}
    (h : time.Writable) (depth : Nat) :
    alertFields.Reads (depth + 1) (.object (alert topic severity message time).fieldMembers)
      (alert topic severity message time) := by
  have hslots : ["topic", "severity", "message", "at"].mapM (Decoder.slot? (Node.ofMembers
        (alert topic severity message time).fieldMembers)) =
      some [.found (.ofJson (.string topic)),
        .found (.ofJson (Severity.codec.encode severity)), .found (.ofJson (.string message)),
        .found (.ofJson (.string time.toText))] := by
    simp [fieldMembers, Decoder.slot?, Decoder.membersNamed_ofMembers]
  have htime : Decoder.instant depth (.ofJson (.string time.toText)) = some time := h.reads depth
  refine Decoder.reads_record hslots ?_
  simp only [Slot.required, Severity.reads, htime]
  rfl

theorem reads_machineFields {build : List String → Event} {ids : List String} {e : Event}
    (he : e.fieldMembers = [("machines", idList ids)]) (depth : Nat) :
    (machineFields build).Reads (depth + 2) (.object e.fieldMembers) (build ids) := by
  have hslots : ["machines"].mapM (Decoder.slot? (Node.ofMembers e.fieldMembers)) =
      some [.found (.ofJson (idList ids))] := by
    simp [he, Decoder.slot?, Decoder.membersNamed_ofMembers]
  have hids : Decoder.string.list (depth + 1) (.ofJson (idList ids)) = some ids :=
    Decoder.reads_list (c := ⟨.string, Decoder.string⟩) fun _ _ => rfl
  refine Decoder.reads_record hslots ?_
  simp only [Slot.required, hids, Option.map_some]

theorem reads_scheduledFields (machine : String) {time : Instant} (h : time.Writable)
    (depth : Nat) :
    scheduledFields.Reads (depth + 1) (.object (terminationScheduled machine time).fieldMembers)
      (terminationScheduled machine time) := by
  have hslots : ["machine", "at"].mapM (Decoder.slot? (Node.ofMembers
        (terminationScheduled machine time).fieldMembers)) =
      some [.found (.ofJson (.string machine)), .found (.ofJson (.string time.toText))] := by
    simp [fieldMembers, Decoder.slot?, Decoder.membersNamed_ofMembers]
  have htime : Decoder.instant depth (.ofJson (.string time.toText)) = some time := h.reads depth
  refine Decoder.reads_record hslots ?_
  simp only [Slot.required, htime]
  rfl

theorem reads_sizeFields {before : Option Nat} {after : Nat}
    (h : (desiredSizeChanged before after).Plain) (depth : Nat) :
    sizeFields.Reads (depth + 1) (.object (desiredSizeChanged before after).fieldMembers)
      (desiredSizeChanged before after) := by
  have hslots : ["from", "to"].mapM (Decoder.slot? (Node.ofMembers
        (desiredSizeChanged before after).fieldMembers)) =
      some [.found (.ofJson ((before.map Json.nat).getD .null)),
        .found (.ofJson (.nat after))] := by
    simp [fieldMembers, Decoder.slot?, Decoder.membersNamed_ofMembers]
  have hbefore : Decoder.nat.nullable depth (.ofJson ((before.map Json.nat).getD .null)) =
      some before := by
    cases before with
    | none => rfl
    | some n =>
      show (Decoder.nat depth (.ofJson (.nat n))).map some = _
      rw [Decoder.reads_nat (h.1 n rfl)]
      rfl
  have hafter : Decoder.nat depth (.ofJson (.nat after)) = some after := Decoder.reads_nat h.2 depth
  refine Decoder.reads_record hslots ?_
  simp only [Slot.required, Slot.optional, hbefore, hafter]
  rfl

theorem reads_stateFields (before after : String) (depth : Nat) :
    stateFields.Reads (depth + 1) (.object (controllerStateChanged before after).fieldMembers)
      (controllerStateChanged before after) := by
  have hslots : ["from", "to"].mapM (Decoder.slot? (Node.ofMembers
        (controllerStateChanged before after).fieldMembers)) =
      some [.found (.ofJson (.string before)), .found (.ofJson (.string after))] := by
    simp [fieldMembers, Decoder.slot?, Decoder.membersNamed_ofMembers]
  exact Decoder.reads_record hslots rfl

theorem Plain.reads_fields {e : Event} (h : e.Plain) {depth : Nat}
    (hlevels : (codec.encode e).levels ≤ depth) :
    ∃ dec, fields? e.kindText = some dec ∧ dec.Reads depth (.object e.fieldMembers) e := by
  have hone : 0 < (codec.encode e).levels := by
    rw [encode_eq]
    exact Nat.succ_pos _
  obtain ⟨depth, rfl⟩ : ∃ k, depth = k + 1 := ⟨depth - 1, by omega⟩
  have hids : ∀ ids, e.fieldMembers = [("machines", idList ids)] → ∃ k, depth = k + 1 := by
    intro ids he
    have hlower : (idList ids).levels < (codec.encode e).levels := by
      rw [encode_eq, he]
      exact Json.levels_member (m := ("machines", _)) List.mem_cons_self
    have hlist : 0 < (idList ids).levels := Nat.succ_pos _
    exact ⟨depth - 1, by omega⟩
  cases e with
  | alert topic severity message time =>
    exact ⟨_, rfl, reads_alertFields topic severity message h _⟩
  | machinesStarted machines =>
    obtain ⟨depth, rfl⟩ := hids machines rfl
    exact ⟨_, rfl, reads_machineFields (e := machinesStarted machines) rfl depth⟩
  | machinesTerminated machines =>
    obtain ⟨depth, rfl⟩ := hids machines rfl
    exact ⟨_, rfl, reads_machineFields (e := machinesTerminated machines) rfl depth⟩
  | terminationScheduled machine time => exact ⟨_, rfl, reads_scheduledFields machine h _⟩
  | desiredSizeChanged before after => exact ⟨_, rfl, reads_sizeFields h _⟩
  | controllerStateChanged before after => exact ⟨_, rfl, reads_stateFields before after _⟩

/-- **An event is read as it was written.** -/
theorem Plain.reads {e : Event} (h : e.Plain) {depth : Nat}
    (hlevels : (codec.encode e).levels ≤ depth) :
    codec.decode.Reads depth (codec.encode e) e := by
  have hvalue := Node.json?_ofJson (codec.encode e) depth h.exact e.inOrder hlevels
  obtain ⟨dec, hdec, hfields⟩ := h.reads_fields hlevels
  have hnames : ∀ m ∈ e.fieldMembers, m.1 ≠ "type" := by
    cases e with
    | _ => simp [fieldMembers]
  have hkind := kind?_ofJson hnames e.kindText
  rw [← encode_eq] at hkind
  show Event.decode depth _ = _
  rw [Event.decode]
  simp only [hvalue, hkind, hdec, Option.bind_eq_bind, Option.bind_some]
  exact hfields

end Event

/-! ## Configurations -/

/-- A configuration that is written exactly: its counts fit their words. -/
structure PoolConfig.Plain (c : PoolConfig) : Prop where
  desiredSize : ∀ size, c.desiredSize = some size → size < Numeral.wordLimit
  margin : c.scaleIn.margin < Numeral.wordLimit
  fetch : c.fetch.Fits
  updateInterval : c.updateInterval < Numeral.wordLimit
  settings : c.driver.settings.Plain

namespace PoolConfig

variable {c : PoolConfig}

theorem Plain.exact (h : c.Plain) : (codec.encode c).Exact := by
  have hdriver : (DriverConfig.codec.encode c.driver).Exact := ⟨trivial, h.settings.exact, trivial⟩
  have hretries : (Retries.codec.encode c.fetch.retries).Exact :=
    ⟨Json.exact_nat h.fetch.retries.initialBackoff,
      Json.exact_nat (Nat.lt_trans h.fetch.retries.maxRetries (by decide)), trivial⟩
  have hfetch : (FetchSchedule.codec.encode c.fetch).Exact :=
    ⟨Json.exact_nat h.fetch.reachabilityTimeout, Json.exact_nat h.fetch.refreshInterval, hretries,
      trivial⟩
  have hupdate : (updateCodec.encode c.updateInterval).Exact :=
    ⟨Json.exact_nat h.updateInterval, trivial⟩
  have hscaleIn : (ScaleIn.codec.encode c.scaleIn).Exact :=
    ⟨Json.exact_nat h.margin, trivial, trivial⟩
  show Json.MembersExact (_ ++ _)
  rw [Json.membersExact_append]
  refine ⟨?_, hdriver, trivial, hfetch, hupdate, hscaleIn, trivial⟩
  cases hdesired : c.desiredSize with
  | none => trivial
  | some n => exact ⟨Json.exact_nat (h.desiredSize n hdesired), trivial⟩

/-- **A configuration is read as it was written.** -/
theorem Plain.reads (h : c.Plain) (hlevels : (codec.encode c).levels ≤ maxDepth) :
    codec.decode.Reads maxDepth (codec.encode c) c := by
  have hdriver : (DriverConfig.codec.encode c.driver).levels < (codec.encode c).levels :=
    Json.levels_member (m := ("driver", _)) (by simp)
  have hsettings : c.driver.settings.levels < (DriverConfig.codec.encode c.driver).levels :=
    Json.levels_member (m := ("settings", _)) (by simp)
  have hlower : c.driver.settings.levels ≤ maxDepth - 2 := by omega
  exact PoolConfig.reads
    { desiredSize := h.desiredSize, margin := h.margin, fetch := h.fetch
      updateInterval := h.updateInterval, settings := Decoder.reads_json h.settings hlower }

end PoolConfig

/-! ## Documents -/

namespace Codec

variable {α : Type} {c : Codec α} {plain : α → Prop}

/-- Documents of values of a kind are read as they were written, whatever white space stands between
the tokens, and no two values share a document. -/
structure RoundTrips (c : Codec α) (plain : α → Prop) : Prop where
  decode {l : Json.Layout} (hl : l.Blank) {x : α} (hx : plain x)
    (hlevels : (c.encode x).levels ≤ maxDepth) : decode? c.decode ((c.encode x).write l) = some x
  distinct {l l' : Json.Layout} (hl : l.Blank) (hl' : l'.Blank) {x y : α} (hx : plain x)
    (hy : plain y) (hlevels : (c.encode x).levels ≤ maxDepth)
    (hlevels' : (c.encode y).levels ≤ maxDepth)
    (h : (c.encode x).write l = (c.encode y).write l') : x = y

/-- A document whose parts are read as they were written. -/
theorem RoundTrips.of_reads (hexact : ∀ x, plain x → (c.encode x).Exact)
    (hreads : ∀ x, plain x → (c.encode x).levels ≤ maxDepth →
      c.decode.Reads maxDepth (c.encode x) x) : c.RoundTrips plain := by
  have hdecode : ∀ {l : Json.Layout}, l.Blank → ∀ {x}, plain x →
      (c.encode x).levels ≤ maxDepth → decode? c.decode ((c.encode x).write l) = some x := by
    intro l hl x hx hlevels
    rw [decode?, Node.read?_write_of_exact hl (hexact x hx)]
    exact hreads x hx hlevels
  refine ⟨hdecode, ?_⟩
  intro l l' hl hl' x y hx hy hlevels hlevels' h
  have hread := hdecode hl hx hlevels
  rw [h, hdecode hl' hy hlevels'] at hread
  exact (Option.some.inj hread).symm

/-- **Documents are read as they were written**: those of machines, of pools, of scheduled
terminations, of events and of configurations. -/
theorem documents_round_trip :
    Machine.codec.RoundTrips Machine.Plain ∧ Pool.codec.RoundTrips Pool.Plain ∧
      Scheduled.codec.RoundTrips Scheduled.Plain ∧ Event.codec.RoundTrips Event.Plain ∧
      PoolConfig.codec.RoundTrips PoolConfig.Plain :=
  ⟨.of_reads (fun _ h => h.exact) fun _ h hlevels => h.reads hlevels,
    .of_reads (fun _ h => h.exact) fun _ h hlevels => h.reads hlevels,
    .of_reads (fun _ h => h.exact) fun _ h hlevels => h.reads hlevels,
    .of_reads (fun _ h => h.exact) fun _ h hlevels => h.reads hlevels,
    .of_reads (fun _ h => h.exact) fun _ h hlevels => h.reads hlevels⟩

/-- A machine with all that is hard to write: the last nanosecond of the year 9999, the largest and
the smallest whole numbers, control characters and characters beyond 16 bits. -/
def hardMachine : Machine where
  id := "\"tab\t\x01\\ é 🦀\x7f"
  state := .pending
  service := .outOfService
  membership := .inactive
  launched := some ⟨253402300799, 999999999⟩
  metadata := .object [("", .array [.nat 18446744073709551615, .object []]),
    ("a\n", .number (.whole (-9223372036854775808))), ("b", .null)]

/-- Both the document of a pool with this machine and the same on one line give the pool. -/
theorem documents_round_trip_hardMachine :
    let p : Pool := ⟨[hardMachine, { id := "", state := .requested }], ⟨-62167219200, 1⟩⟩
    p.Plain ∧ (Pool.codec.encode p).levels = 6 ∧ Pool.codec.ofText? (Pool.codec.toText p) = some p ∧
      decode? Pool.codec.decode ((Pool.codec.encode p).write Json.compact) = some p := by
  intro p
  have hmachine : hardMachine.Plain :=
    { launched := by
        rintro _ ⟨⟩
        exact ⟨by decide, by decide +kernel⟩
      metadata :=
        { exact := ⟨⟨Json.exact_nat (by decide), trivial, trivial⟩, ⟨by decide, by decide⟩,
            trivial, trivial⟩
          inOrder := ⟨by decide, ⟨trivial, ⟨List.Pairwise.nil, trivial⟩, trivial⟩, trivial,
            trivial, trivial⟩ } }
  have hplain : p.Plain :=
    { machines := by
        intro m hm
        rcases List.mem_cons.1 hm with rfl | hm
        · exact hmachine
        · rw [List.mem_singleton.1 hm]
          exact ⟨fun _ h => (by cases h), trivial, trivial⟩
      takenAt := ⟨by decide, by decide +kernel⟩ }
  have hlevels : (Pool.codec.encode p).levels = 6 := by decide +kernel
  have hpool := documents_round_trip.2.1
  have hfits : (Pool.codec.encode p).levels ≤ maxDepth := by rw [hlevels]; decide
  exact ⟨hplain, hlevels, hpool.decode Json.blank_indented hplain hfits,
    hpool.decode Json.blank_compact hplain hfits⟩

end Codec

end PoolKeeper
