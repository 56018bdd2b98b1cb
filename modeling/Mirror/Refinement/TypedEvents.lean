import Mirror.Agent.Outcome
import Mirror.Refinement.ScoredEvents

/-!
Events that are what their type says, with the numbers of the language. What the agent makes of them
as JSON is what the text over any arithmetic says of them.
-/
namespace Mirror.Outcome

open Evm hiding Byte
open Js Number Completion

theorem meanSize_number (sizes : List Number) :
    Mirror.meanSize (sizes.map Json.num) = .ok (meanSize sizes) := by
  have parts : (sizes.map Json.num).mapM primitive = .ok (sizes.map Primitive.num) := by
    have known : ∀ v ∈ sizes.map Json.num, primitive v = .ok (.num (v.toNumber.getD nan)) := by
      intro v member
      obtain ⟨s, -, rfl⟩ := List.mem_map.mp member
      rfl
    rw [mapM_map known, List.map_map]
    rfl
  -- a sum of numbers is one
  have plus (x : Number) : (sizes.map Primitive.num).foldl Primitive.plus (.num x) =
      .num (sizes.foldl add x) := by
    clear parts
    induction sizes generalizing x with
    | nil => rfl
    | cons s sizes ih => exact ih (x.add s)
  simp only [Mirror.meanSize, List.map_eq_nil_iff, meanSize]
  split
  · rfl
  · rw [parts, List.length_map]
    refine congrArg Except.ok ?_
    rw [plus]
    rfl

/-! ### Events -/

/-- The JSON of an event. -/
def OutcomeEvent.json (lead : JsString) (e : OutcomeEvent Number) : Json :=
  .obj ([(text "lead", .str lead), (text "timestamp", .num e.timestamp),
    (text "pnlBps", .num e.pnlBps)] ++
    (e.direction.map fun d => (text "direction", .str d.name)).toList ++
    (e.sizePct.map fun s => (text "sizePct", .num s)).toList)

section

variable (lead : JsString)

theorem get_timestamp (e : OutcomeEvent Number) :
    (e.json lead).get (text "timestamp") = some (.num e.timestamp) := by
  obtain ⟨timestamp, pnlBps, _ | _ | _, _ | _⟩ := e <;> rfl

theorem get_pnlBps (e : OutcomeEvent Number) :
    (e.json lead).get (text "pnlBps") = some (.num e.pnlBps) := by
  obtain ⟨timestamp, pnlBps, _ | _ | _, _ | _⟩ := e <;> rfl

theorem get_direction (e : OutcomeEvent Number) :
    (e.json lead).get (text "direction") = e.direction.map fun d => .str d.name := by
  obtain ⟨timestamp, pnlBps, _ | _ | _, _ | _⟩ := e <;> rfl

theorem get_sizePct (e : OutcomeEvent Number) :
    (e.json lead).get (text "sizePct") = e.sizePct.map .num := by
  obtain ⟨timestamp, pnlBps, _ | _ | _, _ | _⟩ := e <;> rfl

theorem json_complete (events : List (OutcomeEvent Number)) :
    ∀ v ∈ events.map (OutcomeEvent.json lead), Complete v := by
  intro v member
  obtain ⟨e, -, rfl⟩ := List.mem_map.mp member
  exact ⟨by rw [get_timestamp]; rfl, by rw [get_pnlBps]; rfl⟩

theorem timestampOf_json (e : OutcomeEvent Number) : timestampOf (e.json lead) = e.timestamp := by
  rw [timestampOf, get_timestamp]
  rfl

theorem returnOf_json (e : OutcomeEvent Number) : returnOf (e.json lead) = e.pnlBps.div bps := by
  rw [returnOf, get_pnlBps]
  rfl

theorem ascending_keyed {α : Type} (key : α → Number) (as : List α) :
    ascending (as.map fun a => (key a, a)) = sortBy key as := by
  simp only [ascending, sortBy]
  rw [← List.map_insertionSort (r := fun a b : α => ¬zero.lt ((key a).sub (key b)))
    (s := fun x y : Number × α => ¬zero.lt (x.1.sub y.1)) (fun a => (key a, a)) as
    (fun _ _ _ _ => Iff.rfl)]
  rw [List.map_map]
  exact List.map_id _

/-- The events are sorted as their JSON is. -/
theorem byTime_json (events : List (OutcomeEvent Number)) :
    byTime (events.map (OutcomeEvent.json lead)) =
      (sortBy OutcomeEvent.timestamp events).map (OutcomeEvent.json lead) := by
  rw [byTime, List.map_map, ← ascending_keyed, ascending_map, List.map_map]
  simp only [Function.comp_def, timestampOf_json]

theorem consistencyScore_json (events : List (OutcomeEvent Number)) :
    Mirror.consistencyScore ((byTime (events.map (OutcomeEvent.json lead))).map fun e =>
        e.get (text "timestamp")) =
      .ok (consistencyScore ((sortBy OutcomeEvent.timestamp events).map
        OutcomeEvent.timestamp)) := by
  have sorted : gapsOf (events.map (OutcomeEvent.json lead)) =
      gaps (sortBy id ((sortBy OutcomeEvent.timestamp events).map OutcomeEvent.timestamp)) := by
    rw [gapsOf, byTime_json, ← ascending_keyed id, List.map_map, List.map_map]
    simp only [Function.comp_def, timestampOf_json, id]
  have length : ((sortBy OutcomeEvent.timestamp events).map OutcomeEvent.timestamp).length =
      events.length := by
    rw [List.length_map, sortBy, List.length_insertionSort]
  rw [consistencyScore_complete (json_complete lead events), sorted, consistencyScore, length,
    List.length_map]

theorem dataCompleteness_json (events : List (OutcomeEvent Number)) (nowSec : Number) :
    Mirror.dataCompleteness (events.map (OutcomeEvent.json lead)) nowSec =
      .ok (dataCompleteness events nowSec) := by
  have inWindow : (events.map (OutcomeEvent.json lead)).mapM (fun e => do
      return (windowStart nowSec).le (← numeric "timestamp" e)) =
        .ok (events.map fun e => (windowStart nowSec).le e.timestamp) := by
    have known : ∀ v ∈ events.map (OutcomeEvent.json lead), (do
        return (windowStart nowSec).le (← numeric "timestamp" v)) =
          (.ok ((windowStart nowSec).le (timestampOf v)) : Sure Bool) := by
      intro v member
      have complete := json_complete lead events v member
      rw [complete.numeric complete.timestamp]
      rfl
    rw [mapM_map known, List.map_map]
    simp only [Function.comp_def, timestampOf_json]
  have counted (start : Number) : (events.map fun e => start.le e.timestamp).count true =
      (events.filter fun e => start ≤ e.timestamp).length := by
    rw [List.count_eq_countP, List.countP_map, List.countP_eq_length_filter]
    refine congrArg List.length (List.filter_congr fun e _ => ?_)
    exact (beq_true _).trans Bool.decide_eq_true.symm
  simp only [Mirror.dataCompleteness, List.map_eq_nil_iff, dataCompleteness, List.isEmpty_iff]
  split
  · rfl
  · rw [inWindow, ← counted]
    rfl

/-- Events that are what their type says are scored as the text over any arithmetic says. -/
theorem scoreLead_json (events : List (OutcomeEvent Number)) (nowSec : Number) :
    Mirror.scoreLead (events.map (OutcomeEvent.json lead)) nowSec =
      .ok (scoreLead events nowSec) := by
  have complete := json_complete lead events
  have sorted := complete_byTime complete
  have returns : (byTime (events.map (OutcomeEvent.json lead))).mapM (fun e => do
      return (← numeric "pnlBps" e).div bps) =
        .ok ((sortBy OutcomeEvent.timestamp events).map fun e => e.pnlBps / bps) := by
    have known : ∀ v ∈ byTime (events.map (OutcomeEvent.json lead)), (do
        return (← numeric "pnlBps" v).div bps) = (.ok (returnOf v) : Sure Number) := by
      intro v member
      rw [(sorted v member).numeric (sorted v member).pnlBps]
      rfl
    rw [mapM_map known, byTime_json, List.map_map]
    simp only [Function.comp_def, returnOf_json]
    rfl
  have timestamps : (byTime (events.map (OutcomeEvent.json lead))).mapM (property "timestamp") =
      .ok ((byTime (events.map (OutcomeEvent.json lead))).map fun e =>
        e.get (text "timestamp")) :=
    mapM_map fun v member => (sorted v member).property "timestamp"
  have completeness := dataCompleteness_json lead (sortBy OutcomeEvent.timestamp events) nowSec
  rw [← byTime_json] at completeness
  exact (bind_ok _ _ _).mpr ⟨_, sortBy_timestamp complete, (bind_ok _ _ _).mpr ⟨_, returns,
    (bind_ok _ _ _).mpr ⟨_, timestamps, (bind_ok _ _ _).mpr ⟨_, consistencyScore_json lead events,
      (bind_ok _ _ _).mpr ⟨_, completeness, rfl⟩⟩⟩⟩⟩

theorem directionSeries_json (events : List (OutcomeEvent Number)) :
    Mirror.directionSeries (events.map (OutcomeEvent.json lead)) =
      .ok (directionSeries events) := by
  have series (e : OutcomeEvent Number) :
      (if ((e.json lead).get (text "direction")).bind Json.asString = some (text "SELL") then
        one.neg else one) = if e.direction = some .sell then -1 else 1 := by
    rw [get_direction]
    obtain ⟨timestamp, pnlBps, _ | _ | _, sizePct⟩ := e <;> rfl
  have known : ∀ v ∈ events.map (OutcomeEvent.json lead), (do
      let direction ← property "direction" v
      return if direction.bind Json.asString = some (text "SELL") then one.neg else one) =
        (.ok (if (v.get (text "direction")).bind Json.asString = some (text "SELL") then one.neg
          else one) : Sure Number) := by
    intro v member
    rw [(json_complete lead events v member).property]
    rfl
  rw [Mirror.directionSeries, mapM_map known, List.map_map, directionSeries]
  simp only [Function.comp_def, series]

theorem directionAutocorr_json (events : List (OutcomeEvent Number)) :
    Mirror.directionAutocorr (events.map (OutcomeEvent.json lead)) =
      .ok (directionAutocorr events) :=
  (bind_ok _ _ _).mpr ⟨_, directionSeries_json lead events, rfl⟩

theorem sizeValue_json (e : OutcomeEvent Number) :
    sizeValue (e.json lead) = .num (e.sizePct.getD 0) := by
  rw [sizeValue, get_sizePct]
  obtain ⟨timestamp, pnlBps, direction, _ | _⟩ := e <;> rfl

/-- Sizes as they are read and measured. -/
theorem positiveSizes_json (events : List (OutcomeEvent Number)) :
    (((events.map (OutcomeEvent.json lead)).map sizeValue).map fun v =>
        (v, v.toNumber.getD nan)).filter (fun m => zero.lt m.2) =
      (positiveSizes events).map fun s => (Json.num s, s) := by
  have measured : ((events.map (OutcomeEvent.json lead)).map sizeValue).map (fun v =>
      (v, v.toNumber.getD nan)) = (events.map fun e => e.sizePct.getD 0).map fun s =>
        (Json.num s, s) := by
    rw [List.map_map, List.map_map, List.map_map]
    refine List.map_congr_left fun e _ => ?_
    simp only [Function.comp_def, sizeValue_json]
    rfl
  rw [measured, List.filter_map, positiveSizes]
  refine congrArg (List.map _) (List.filter_congr fun s _ => ?_)
  exact Bool.decide_eq_true.symm

/-- Events that are what their type says are classified as the text over any arithmetic says. -/
theorem classifyLead_json (events : List (OutcomeEvent Number)) :
    Mirror.classifyLead (events.map (OutcomeEvent.json lead)) = .ok (classifyLead events) := by
  let sorted := sortBy OutcomeEvent.timestamp events
  have complete := json_complete lead sorted
  have order : Mirror.sortBy (numeric "timestamp") (events.map (OutcomeEvent.json lead)) =
      .ok (sorted.map (OutcomeEvent.json lead)) := by
    rw [sortBy_timestamp (json_complete lead events), byTime_json]
  have converts : ∀ v ∈ (sorted.map (OutcomeEvent.json lead)).map sizeValue,
      v.toNumber.isSome = true := by
    rw [List.map_map]
    intro v member
    obtain ⟨e, -, rfl⟩ := List.mem_map.mp member
    rw [Function.comp_apply, sizeValue_json]
    rfl
  have averaged : Mirror.meanSize
      (((positiveSizes sorted).map fun s => (Json.num s, s)).map (·.1)) =
        .ok (meanSize (positiveSizes sorted)) := by
    rw [List.map_map]
    exact meanSize_number (positiveSizes sorted)
  have losses := losses_complete complete
  rw [← positiveSizes_json lead] at averaged
  refine (bind_ok _ _ _).mpr ⟨_, order, (bind_ok _ _ _).mpr ⟨_, directionSeries_json lead sorted,
    (bind_ok _ _ _).mpr ⟨_, directionAutocorr_json lead sorted, (bind_ok _ _ _).mpr ⟨_,
      sizes_complete complete, (bind_ok _ _ _).mpr ⟨_, measured_ok converts,
        (bind_ok _ _ _).mpr ⟨_, averaged, (bind_ok _ _ _).mpr ⟨_, losses, ?_⟩⟩⟩⟩⟩⟩⟩
  have lost : (sorted.map (OutcomeEvent.json lead)).map (fun v =>
      (numberOr (v.get (text "pnlBps"))).abs) = sorted.map fun e => e.pnlBps.abs := by
    rw [List.map_map]
    refine List.map_congr_left fun e _ => ?_
    rw [Function.comp_apply, get_pnlBps]
    rfl
  have sizes : ((positiveSizes sorted).map fun s => (Json.num s, s)).map (·.2) =
      positiveSizes sorted := by
    rw [List.map_map]
    exact List.map_id _
  rw [positiveSizes_json, lost, sizes]
  simp only [List.length_map, List.map_eq_nil_iff, classifyLead, meanAbsPnl, List.isEmpty_iff]
  rfl

/-- Their drift is found as the text over any arithmetic says. -/
theorem detectDrift_json (setting : Option JsString) (baseline cycle : Number)
    (events : List (OutcomeEvent Number)) :
    Mirror.detectDrift setting lead baseline (events.map (OutcomeEvent.json lead)) cycle =
      .ok (detectDrift (driftConfidenceThreshold setting) lead baseline events cycle none) :=
  (bind_ok _ _ _).mpr ⟨_, classifyLead_json lead events, rfl⟩

end

end Mirror.Outcome
