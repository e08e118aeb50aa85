import Mathlib.Data.List.Forall2
import Mathlib.Data.List.Induction
import RecordRegistry.Report

/-!
# A report is a partition of its rows

The rejected rows stand in a report under their places among all rows, the accepted ones in their
order in between. So a report tells what became of every row, and the report on rows in two parts is
that on the first part followed by that on the second one.
-/

namespace RecordRegistry

open Json (Value Record)

/-- A rejection behind a number of further rows. -/
def Rejection.shift (count : Nat) (rejection : Rejection) : Rejection :=
  { rejection with index := count + rejection.index }

namespace Report

/-- Puts failures at their places, the first place being `index`, and records in their order into
the gaps. -/
def fill (index : Nat) : List Rejection → List ValidRecord → List Outcome
  | [], records => records.map .accepted
  | rejection :: rejected, records =>
      (records.take (rejection.index - index)).map .accepted ++
        .rejected rejection.failure ::
          fill (rejection.index + 1) rejected (records.drop (rejection.index - index))

/-- What became of the rows, as far as a report tells it. -/
def outcomes (report : Report) : List Outcome := fill 0 report.rejected report.accepted

/-- A report followed by one on further rows. -/
def append (first second : Report) : Report where
  identity := first.identity
  total := first.total + second.total
  accepted := first.accepted ++ second.accepted
  rejected := first.rejected ++ second.rejected.map (Rejection.shift first.total)

/-- The records of the accepted rows. -/
abbrev records (outcomes : List Outcome) : List ValidRecord :=
  outcomes.filterMap fun
    | .accepted record => some record
    | .rejected _ => none

theorem records_accepted (record : ValidRecord) (outcomes : List Outcome) :
    records (.accepted record :: outcomes) = record :: records outcomes := rfl

theorem records_rejected (failure : Failure) (outcomes : List Outcome) :
    records (.rejected failure :: outcomes) = records outcomes := rfl

theorem le_index_of_mem_rejections {index : Nat} {outcomes : List Outcome} {rejection : Rejection}
    (h : rejection ∈ rejections index outcomes) : index ≤ rejection.index := by
  induction outcomes generalizing index with
  | nil => cases h
  | cons outcome rest ih =>
      cases outcome with
      | accepted record => exact Nat.le_of_succ_le (ih h)
      | rejected failure =>
          rcases List.mem_cons.mp h with rfl | h
          · exact Nat.le_refl _
          · exact Nat.le_of_succ_le (ih h)

/-- Nothing is rejected when every row is accepted. -/
theorem rejections_eq_nil_iff (index : Nat) (outcomes : List Outcome) :
    rejections index outcomes = [] ↔ ∀ outcome ∈ outcomes, outcome.ok = true := by
  induction outcomes generalizing index with
  | nil => simp [rejections]
  | cons outcome rest ih =>
      cases outcome with
      | accepted record => simp [rejections, ih, Outcome.ok]
      | rejected failure => simp [rejections, Outcome.ok]

/-- The places of rejected rows ascend. -/
theorem pairwise_index_rejections (index : Nat) (outcomes : List Outcome) :
    ((rejections index outcomes).map Rejection.index).Pairwise (· < ·) := by
  induction outcomes generalizing index with
  | nil => exact .nil
  | cons outcome rest ih =>
      cases outcome with
      | accepted record => exact ih (index + 1)
      | rejected failure =>
          rw [rejections, List.map_cons, List.pairwise_cons]
          refine ⟨?_, ih (index + 1)⟩
          intro place hplace
          obtain ⟨rejection, hrejection, rfl⟩ := List.mem_map.mp hplace
          exact le_index_of_mem_rejections hrejection

/-- A failure stands at a place exactly when the row there was rejected with it. -/
theorem mem_rejections_iff (index count : Nat) (failure : Failure) (outcomes : List Outcome) :
    ⟨index + count, failure⟩ ∈ rejections index outcomes ↔
      outcomes[count]? = some (.rejected failure) := by
  induction outcomes generalizing index count with
  | nil => simp [rejections]
  | cons outcome rest ih =>
      have hbehind (h : ⟨index, failure⟩ ∈ rejections (index + 1) rest) : False := by
        have hle := le_index_of_mem_rejections h
        simp only at hle
        omega
      cases count with
      | zero =>
          cases outcome with
          | accepted record =>
              simp only [rejections, Nat.add_zero, List.getElem?_cons_zero, Option.some.injEq,
                reduceCtorEq, iff_false]
              exact hbehind
          | rejected other =>
              simp only [rejections, Nat.add_zero, List.mem_cons, Rejection.mk.injEq, true_and,
                List.getElem?_cons_zero, Option.some.injEq, Outcome.rejected.injEq]
              constructor
              · rintro (rfl | h)
                · rfl
                · exact (hbehind h).elim
              · exact fun h => .inl h.symm
      | succ count =>
          have hrest := ih (index + 1) count
          rw [Nat.add_right_comm, Nat.add_assoc] at hrest
          cases outcome with
          | accepted record => simpa [rejections] using hrest
          | rejected other =>
              simpa [rejections, show index + (count + 1) ≠ index by omega] using hrest

theorem map_shift_rejections (count index : Nat) (outcomes : List Outcome) :
    (rejections index outcomes).map (Rejection.shift count) =
      rejections (count + index) outcomes := by
  induction outcomes generalizing index with
  | nil => rfl
  | cons outcome rest ih =>
      cases outcome with
      | accepted record => exact ih (index + 1)
      | rejected failure =>
          rw [rejections, List.map_cons, ih (index + 1)]
          rfl

theorem rejections_append (index : Nat) (first second : List Outcome) :
    rejections index (first ++ second) =
      rejections index first ++ rejections (index + first.length) second := by
  induction first generalizing index with
  | nil => rfl
  | cons outcome rest ih =>
      have hrest := ih (index + 1)
      rw [Nat.add_assoc, Nat.add_comm 1] at hrest
      cases outcome with
      | accepted record => simpa [rejections] using hrest
      | rejected failure => simpa [rejections] using hrest

/-- A record in front goes into the first gap. -/
theorem fill_accepted {index : Nat} {rejected : List Rejection}
    (h : ∀ rejection ∈ rejected, index < rejection.index) (record : ValidRecord)
    (records : List ValidRecord) :
    fill index rejected (record :: records) =
      .accepted record :: fill (index + 1) rejected records := by
  cases rejected with
  | nil => rfl
  | cons rejection rejected =>
      have hgap : rejection.index - index = rejection.index - (index + 1) + 1 := by
        have hindex := h rejection List.mem_cons_self
        omega
      simp [fill, hgap]

theorem fill_rejections (index : Nat) (outcomes : List Outcome) :
    fill index (rejections index outcomes) (records outcomes) = outcomes := by
  induction outcomes generalizing index with
  | nil => rfl
  | cons outcome rest ih =>
      cases outcome with
      | accepted record =>
          have hindex : ∀ rejection ∈ rejections (index + 1) rest, index < rejection.index :=
            fun rejection h => le_index_of_mem_rejections h
          rw [rejections, records_accepted, fill_accepted hindex, ih]
      | rejected failure =>
          rw [rejections, records_rejected]
          simp [fill, ih]

/-- A report tells what became of every row. -/
theorem outcomes_ofOutcomes (identity : Identity) (outcomes : List Outcome) :
    (ofOutcomes identity outcomes).outcomes = outcomes :=
  fill_rejections 0 outcomes

/-- The report on rows in two parts is made from the reports on the parts. -/
theorem ofOutcomes_append (identity : Identity) (first second : List Outcome) :
    ofOutcomes identity (first ++ second) =
      (ofOutcomes identity first).append (ofOutcomes identity second) := by
  have hrejected := rejections_append 0 first second
  rw [Nat.zero_add, ← Nat.add_zero first.length, ← map_shift_rejections] at hrejected
  simp [ofOutcomes, append, hrejected]

/-- What is chosen from a list comes from the places that have something to choose. -/
theorem forall₂_filterMap {α β : Type} (f : α → Option β) (list : List α) :
    List.Forall₂ (fun index b => ∃ a, list[index]? = some a ∧ f a = some b)
      ((List.range list.length).filter fun index => (list[index]?.bind f).isSome)
      (list.filterMap f) := by
  induction list using List.reverseRecOn with
  | nil => exact .nil
  | append_singleton list last ih =>
      have hfilter : (List.range list.length).filter
            (fun index => ((list ++ [last])[index]?.bind f).isSome) =
          (List.range list.length).filter fun index => (list[index]?.bind f).isSome := by
        apply List.filter_congr
        intro index hindex
        rw [List.getElem?_append_left (List.mem_range.mp hindex)]
      have hearlier := ih.imp (S := fun index b =>
          ∃ a, (list ++ [last])[index]? = some a ∧ f a = some b) fun index b h => by
        obtain ⟨a, ha, hb⟩ := h
        exact ⟨a, by rw [List.getElem?_append_left (List.getElem?_eq_some_iff.mp ha).1, ha], hb⟩
      rw [List.length_append, List.length_singleton, List.range_succ, List.filter_append, hfilter,
        List.filterMap_append]
      refine List.rel_append hearlier ?_
      cases hlast : f last with
      | none => simp [hlast]
      | some b => simp [hlast]

/-- The accepted records are those of the places where no failure stands, in their order. -/
theorem forall₂_records (outcomes : List Outcome) :
    List.Forall₂ (fun index record => outcomes[index]? = some (.accepted record))
      ((List.range outcomes.length).filter
        (· ∉ (rejections 0 outcomes).map Rejection.index))
      (records outcomes) := by
  have hplaces : (List.range outcomes.length).filter
        (· ∉ (rejections 0 outcomes).map Rejection.index) =
      (List.range outcomes.length).filter fun index => (outcomes[index]?.bind fun
        | .accepted record => some record
        | .rejected _ => none).isSome := by
    apply List.filter_congr
    intro index hindex
    have hmem (failure : Failure) : ⟨index, failure⟩ ∈ rejections 0 outcomes ↔
        outcomes[index]? = some (.rejected failure) := by
      simpa using mem_rejections_iff 0 index failure outcomes
    have hlength := List.mem_range.mp hindex
    rw [List.getElem?_eq_getElem hlength] at hmem ⊢
    cases houtcome : outcomes[index] with
    | accepted record =>
        rw [houtcome] at hmem
        simp only [List.mem_map, not_exists, not_and, Option.bind_some, Option.isSome_some,
          decide_eq_true_eq]
        rintro ⟨place, failure⟩ hrejection rfl
        cases (hmem failure).mp hrejection
    | rejected failure =>
        rw [houtcome] at hmem
        simp only [Option.bind_some, Option.isSome_none, decide_eq_false_iff_not, not_not]
        exact List.mem_map.mpr ⟨_, (hmem failure).mpr rfl, rfl⟩
  rw [hplaces]
  refine (forall₂_filterMap _ outcomes).imp ?_
  rintro index record ⟨outcome, houtcome, hrecord⟩
  cases outcome with
  | accepted accepted => rw [houtcome, Option.some.inj hrecord]
  | rejected failure => cases hrecord

/-- A report under an identity on the outcomes of all rows. A failure stands in it at the place of
its row, in ascending order, and the accepted records are those of all other places. -/
structure Tells (report : Report) (identity : Identity) (outcomes : List Outcome) : Prop where
  identity_eq : report.identity = identity
  total_eq : report.total = outcomes.length
  ascending : (report.rejected.map Rejection.index).Pairwise (· < ·)
  mem_rejected_iff : ∀ index failure,
    ⟨index, failure⟩ ∈ report.rejected ↔ outcomes[index]? = some (.rejected failure)
  accepted : List.Forall₂ (fun index record => outcomes[index]? = some (.accepted record))
    ((List.range report.total).filter (· ∉ report.rejected.map Rejection.index)) report.accepted

theorem tells_ofOutcomes (identity : Identity) (outcomes : List Outcome) :
    (ofOutcomes identity outcomes).Tells identity outcomes where
  identity_eq := rfl
  total_eq := rfl
  ascending := pairwise_index_rejections 0 outcomes
  mem_rejected_iff index failure := by
    rw [← mem_rejections_iff 0 index failure outcomes, Nat.zero_add]
    rfl
  accepted := forall₂_records outcomes

namespace Tells

variable {report : Report} {identity : Identity} {outcomes : List Outcome}

theorem mem_of_accepted (h : report.Tells identity outcomes) {record : ValidRecord}
    (hrecord : record ∈ report.accepted) : .accepted record ∈ outcomes := by
  obtain ⟨place, hplace, rfl⟩ := List.getElem_of_mem hrecord
  have houtcome := h.accepted.get (h.accepted.length_eq ▸ hplace) hplace
  exact List.mem_of_getElem? houtcome

theorem mem_of_rejected (h : report.Tells identity outcomes) {rejection : Rejection}
    (hrejection : rejection ∈ report.rejected) : .rejected rejection.failure ∈ outcomes :=
  List.mem_of_getElem? ((h.mem_rejected_iff rejection.index rejection.failure).mp hrejection)

end Tells

end Report

namespace Schema

/-- The records of a report are the accepted rows. -/
theorem mem_accepted_report {schema : Schema} {mode : UnknownFields} {rows : List Record}
    {record : ValidRecord} (h : record ∈ (schema.report mode rows).accepted) :
    ∃ row ∈ rows, schema.validate mode row = .accepted record :=
  List.mem_map.mp ((Report.tells_ofOutcomes _ _).mem_of_accepted h)

/-- The failures of a report are those of the rejected rows. -/
theorem mem_rejected_report {schema : Schema} {mode : UnknownFields} {rows : List Record}
    {rejection : Rejection} (h : rejection ∈ (schema.report mode rows).rejected) :
    ∃ row ∈ rows, schema.validate mode row = .rejected rejection.failure :=
  List.mem_map.mp ((Report.tells_ofOutcomes _ _).mem_of_rejected h)

/-- A report is good if every row has been accepted. -/
theorem ok_report_iff {schema : Schema} {mode : UnknownFields} {rows : List Record} :
    (schema.report mode rows).ok = true ↔ ∀ row ∈ rows, (schema.validate mode row).ok = true := by
  rw [report, Report.ok, List.isEmpty_iff, Report.ofOutcomes, Report.rejections_eq_nil_iff,
    List.forall_mem_map]

/--
Records always have a report.  Its failures stand at the places of the rows that are rejected, in
ascending order, and its records are those of all other places, so that every row counts once and
the outcomes of all rows can be told from the report.  The report on further rows behind these
follows it, with all its places moved on.
-/
theorem validateRows_partition (schema : Schema) (mode : UnknownFields) (rows : List Record) :
    ∃ report, (schema.validateRows mode.name (rows.map .object)).2 = .ok report ∧
      report.total = rows.length ∧
      (report.rejected.map Rejection.index).Pairwise (· < ·) ∧
      (∀ index failure, ⟨index, failure⟩ ∈ report.rejected ↔
        ∃ row, rows[index]? = some row ∧ schema.validate mode row = .rejected failure) ∧
      List.Forall₂ (fun index record =>
          ∃ row, rows[index]? = some row ∧ schema.validate mode row = .accepted record)
        ((List.range report.total).filter (· ∉ report.rejected.map Rejection.index))
        report.accepted ∧
      report.accepted.length + report.rejected.length = report.total ∧
      report.outcomes = rows.map (schema.validate mode) ∧
      ∀ others : List Record, ∃ later whole,
        (schema.validateRows mode.name (others.map .object)).2 = .ok later ∧
        (schema.validateRows mode.name ((rows ++ others).map .object)).2 = .ok whole ∧
        whole = report.append later := by
  have hrow (index : Nat) (outcome : Outcome) :
      (rows.map (schema.validate mode))[index]? = some outcome ↔
        ∃ row, rows[index]? = some row ∧ schema.validate mode row = outcome := by
    rw [List.getElem?_map, Option.map_eq_some_iff]
  have htotal : (schema.report mode rows).total = (rows.map (schema.validate mode)).length := rfl
  refine ⟨schema.report mode rows, by rw [validateRows_records], ?_, ?_, ?_, ?_, ?_, ?_, ?_⟩
  · rw [htotal, List.length_map]
  · exact Report.pairwise_index_rejections 0 _
  · intro index failure
    rw [← hrow, ← Report.mem_rejections_iff 0 index failure, Nat.zero_add]
    rfl
  · simp only [← hrow]
    exact Report.forall₂_records _
  · exact Report.length_ofOutcomes _ _
  · exact Report.outcomes_ofOutcomes _ _
  · intro others
    refine ⟨_, _, by rw [validateRows_records], by rw [validateRows_records], ?_⟩
    rw [report, List.map_append, Report.ofOutcomes_append]
    rfl

end Schema

end RecordRegistry
