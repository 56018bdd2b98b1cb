import Mirror.Refinement.Scores

/-!
What becomes of events. Complete ones are scored without a throw, and classified without one if
their sizes are convertible; the score is publishable unless a sum over them overflows.
-/
namespace Mirror

open Evm hiding Byte
open Js Number Completion

section

variable {α β : Type}

/-- A loop whose every turn is known. -/
theorem mapM_map {f : α → Sure β} {g : α → β} {as : List α} (known : ∀ a ∈ as, f a = .ok (g a)) :
    as.mapM f = .ok (as.map g) := by
  rw [mapM_ok]
  induction as with
  | nil => exact .nil
  | cons a as ih =>
    rw [List.forall_mem_cons] at known
    exact .cons known.1 (ih known.2)

theorem ascending_perm (keyed : List (Number × α)) :
    (ascending keyed).Perm (keyed.map (·.2)) :=
  (List.perm_insertionSort _ keyed).map _

theorem ascending_map (f : α → β) (keyed : List (Number × α)) :
    (ascending keyed).map f = ascending (keyed.map fun x => (x.1, f x.2)) := by
  simp only [ascending]
  rw [← List.map_insertionSort (r := fun x y : Number × α => ¬zero.lt (x.1.sub y.1))
    (s := fun x y : Number × β => ¬zero.lt (x.1.sub y.1)) _ keyed (fun _ _ _ _ => Iff.rfl)]
  rw [List.map_map, List.map_map]
  rfl

theorem sortBy_ok {key : α → Sure Number} {g : α → Number} {as : List α}
    (known : ∀ a ∈ as, key a = .ok (g a)) :
    sortBy key as = .ok (ascending (as.map fun a => (g a, a))) := by
  simp only [sortBy]
  split
  next few =>
    -- fewer than two are not compared, and already in order
    match as, few with
    | [], _ => rfl
    | [a], _ => rfl
  next =>
    have keyed : (as.mapM fun a => do return (← key a, a)) = .ok (as.map fun a => (g a, a)) :=
      mapM_map fun a member => by rw [known a member]; rfl
    rw [keyed]
    rfl

end

/-! ### Complete events -/

/-- A value that is a number, or no number. -/
def numberOr (v : Option Json) : Number := (v.bind Json.asNumber).getD nan

/-- An event with numbers for its time and its return. -/
structure Complete (e : Json) : Prop where
  timestamp : ((e.get (text "timestamp")).bind Json.asNumber).isSome = true
  pnlBps : ((e.get (text "pnlBps")).bind Json.asNumber).isSome = true

/-- `e.sizePct ?? 0`, of an event that is not `null`. -/
def sizeValue (e : Json) : Json :=
  ((e.get (text "sizePct")).filter fun v => !v.isNull).getD (.num zero)

/-- An event whose size converts to a number without a throw. -/
def Sizeable (e : Json) : Prop := (sizeValue e).toNumber.isSome = true

section

variable {e : Json} {v : Option Json}

theorem operand_number (h : (v.bind Json.asNumber).isSome = true) :
    operand v = .ok (numberOr v) := by
  match v, h with
  | some (.num x), _ => rfl

/-- Times that are numbers, sorted. -/
theorem sorted_operands {timestamps : List (Option Json)}
    (numbers : ∀ v ∈ timestamps, (v.bind Json.asNumber).isSome = true) :
    (sortBy operand (timestamps.filter Option.isSome) >>= fun present =>
      (present ++ timestamps.filter Option.isNone).mapM operand) =
      .ok (ascending (timestamps.map fun v => (numberOr v, numberOr v))) := by
  -- no time is `undefined`, so nothing is left out of the sorting
  have defined : ∀ v ∈ timestamps, v.isSome = true := by
    intro v member
    have number := numbers v member
    cases v with
    | none => cases number
    | some _ => rfl
  have all : timestamps.filter Option.isSome = timestamps := List.filter_eq_self.mpr defined
  have none : timestamps.filter Option.isNone = [] := by
    refine List.filter_eq_nil_iff.mpr fun v member => ?_
    rw [Option.isNone_eq_false_iff.mpr (defined v member)]
    exact Bool.false_ne_true
  have perm := ascending_perm (timestamps.map fun v => (numberOr v, v))
  have converted : (ascending (timestamps.map fun v => (numberOr v, v))).mapM operand =
      .ok ((ascending (timestamps.map fun v => (numberOr v, v))).map numberOr) := by
    refine mapM_map fun v member => operand_number (numbers v ?_)
    simpa using perm.mem_iff.mp member
  rw [all, none, sortBy_ok fun v member => operand_number (numbers v member)]
  refine Eq.trans (congrArg (List.mapM operand) (List.append_nil _)) ?_
  rw [converted, ascending_map, List.map_map]
  rfl

theorem Complete.property (complete : Complete e) (key : String) :
    property key e = .ok (e.get (text key)) := by
  cases e with
  | null => cases complete.timestamp
  | _ => rfl

theorem Complete.numeric (complete : Complete e) {key : String}
    (h : ((e.get (text key)).bind Json.asNumber).isSome = true) :
    numeric key e = .ok (numberOr (e.get (text key))) := by
  rw [Mirror.numeric, complete.property]
  exact operand_number h

end

def timestampOf (e : Json) : Number := numberOr (e.get (text "timestamp"))

def returnOf (e : Json) : Number :=
  (numberOr (e.get (text "pnlBps"))).div bps

/-- The events in the order of their times. -/
def byTime (events : List Json) : List Json := ascending (events.map fun e => (timestampOf e, e))

/-- The positive gaps between the times of the events. -/
def gapsOf (events : List Json) : List Number :=
  gaps (ascending ((byTime events).map fun e => (timestampOf e, timestampOf e)))

/-- No sum overflows that a score of the events depends on: of the returns if there are two, and of
the gaps if there are three. -/
def SumsFinite (events : List Json) : Prop :=
  (2 ≤ events.length → (sum ((byTime events).map returnOf)).isFinite = true) ∧
  (3 ≤ events.length → (sum (gapsOf events)).isFinite = true)

section

variable {events : List Json} (complete : ∀ e ∈ events, Complete e)

theorem byTime_perm (events : List Json) : (byTime events).Perm events := by
  have perm := ascending_perm (events.map fun e => (timestampOf e, e))
  rwa [List.map_map, List.map_id''] at perm
  exact fun _ => rfl

theorem byTime_map {α : Type} (f : Json → α) (events : List Json) :
    (byTime events).map f = ascending (events.map fun e => (timestampOf e, f e)) := by
  rw [byTime, ascending_map, List.map_map]
  rfl

include complete

theorem sortBy_timestamp : sortBy (numeric "timestamp") events = .ok (byTime events) :=
  sortBy_ok fun e member => (complete e member).numeric (complete e member).timestamp

theorem complete_byTime : ∀ e ∈ byTime events, Complete e := fun e member =>
  complete e ((byTime_perm events).mem_iff.mp member)

/-! ### Scores -/

theorem consistencyScore_complete :
    consistencyScore ((byTime events).map fun e => e.get (text "timestamp")) =
      .ok (if events.length < 3 then sparse events.length else regularity (gapsOf events)) := by
  have numbers : ∀ v ∈ (byTime events).map fun e => e.get (text "timestamp"),
      (v.bind Json.asNumber).isSome = true := by
    intro v member
    obtain ⟨e, member', rfl⟩ := List.mem_map.mp member
    exact (complete_byTime complete e member').timestamp
  simp only [consistencyScore]
  rw [List.length_map, (byTime_perm events).length_eq]
  split
  · rfl
  · have sorted := sorted_operands numbers
    have gaps_eq : gapsOf events = gaps (ascending (((byTime events).map fun e =>
        e.get (text "timestamp")).map fun v => (numberOr v, numberOr v))) := by
      rw [gapsOf, List.map_map]
      rfl
    rw [gaps_eq, ← bind_assoc, sorted]
    rfl

omit complete in
/-- The score is a number exactly if no sum overflows. -/
theorem composite_iff (events : List Json) {ratio : Number} (nonneg : ratio.IsNonneg) :
    composite (sharpeEquivalent ((byTime events).map returnOf) (Calculation.literal 365))
        (maxDrawdown ((byTime events).map returnOf))
        (if events.length < 3 then sparse events.length else regularity (gapsOf events)) ratio ≠
          nan ↔ SumsFinite events := by
  have length : ((byTime events).map returnOf).length = events.length := by
    rw [List.length_map, (byTime_perm events).length_eq]
  -- a sum that overflows leaves no number, and if none does every part is one
  constructor
  · intro known
    constructor
    · intro two
      by_contra overflow
      refine known (composite_nan (.inl (sharpe_nan (length.symm ▸ two) ?_)))
      exact Bool.eq_false_of_not_eq_true overflow
    · intro three
      by_contra overflow
      refine known (composite_nan (.inr ?_))
      rw [if_neg (not_lt.mpr three)]
      exact regularity_nan (Bool.eq_false_of_not_eq_true overflow)
  · rintro ⟨returns, gaps⟩
    refine composite_ne_nan (sharpe_ne_nan ?_) (maxDrawdown_ne_nan _) ?_ nonneg
    · rw [length]
      exact returns
    · split
      · exact sparse_isNonneg _
      next several =>
        refine regularity_isNonneg ?_ (gaps (not_lt.mp several))
        intro g member
        exact of_decide_eq_true (List.mem_filter.mp member).2

theorem dataCompleteness_complete (nowSec : Number) :
    ∃ ratio, dataCompleteness events nowSec = .ok ratio ∧ ratio.IsNonneg := by
  unfold dataCompleteness
  split
  · exact ⟨zero, rfl, zero_isNonneg⟩
  · have inWindow : ∃ bs, events.mapM (fun e => do
        return (windowStart nowSec).le (← numeric "timestamp" e)) = .ok bs :=
      ⟨_, mapM_map fun e member => by
        rw [(complete e member).numeric (complete e member).timestamp]
        rfl⟩
    obtain ⟨bs, counted⟩ := inWindow
    refine ⟨coverage (bs.count true), ?_, coverage_isNonneg _⟩
    rw [counted]
    rfl

theorem scoreLead_complete (nowSec : Number) :
    ∃ b, scoreLead events nowSec = .ok b ∧ (Publishable b.aiScore ↔ SumsFinite events) := by
  have sorted := complete_byTime complete
  have returns : (byTime events).mapM (fun e => do
      return (← numeric "pnlBps" e).div bps) =
        .ok ((byTime events).map returnOf) :=
    mapM_map fun e member => by
      rw [(sorted e member).numeric (sorted e member).pnlBps]
      rfl
  have timestamps : (byTime events).mapM (property "timestamp") =
      .ok ((byTime events).map fun e => e.get (text "timestamp")) :=
    mapM_map fun e member => (sorted e member).property "timestamp"
  obtain ⟨ratio, counted, nonneg⟩ := dataCompleteness_complete sorted nowSec
  refine ⟨_, (bind_ok _ _ _).mpr ⟨_, sortBy_timestamp complete, (bind_ok _ _ _).mpr ⟨_, returns,
    (bind_ok _ _ _).mpr ⟨_, timestamps, (bind_ok _ _ _).mpr ⟨_, consistencyScore_complete complete,
      (bind_ok _ _ _).mpr ⟨_, counted, rfl⟩⟩⟩⟩⟩, ?_⟩
  exact (clamp_round_publishable _).trans (composite_iff events nonneg)

omit complete in
/-- Whatever is scored, the check of its range lets it through. -/
theorem scoreLead_inRange {nowSec : Number} {b : ScoreBreakdown Number}
    (scored : scoreLead events nowSec = .ok b) : scoreOutOfRange b.aiScore = false := by
  obtain ⟨_, -, scored⟩ := (bind_ok _ _ _).mp scored
  obtain ⟨_, -, scored⟩ := (bind_ok _ _ _).mp scored
  obtain ⟨_, -, scored⟩ := (bind_ok _ _ _).mp scored
  obtain ⟨_, -, scored⟩ := (bind_ok _ _ _).mp scored
  obtain ⟨_, -, scored⟩ := (bind_ok _ _ _).mp scored
  cases scored
  exact clamp_inRange _

/-! ### Classifications -/

theorem directionSeries_complete : ∃ d, directionSeries events = .ok d :=
  ⟨_, mapM_map fun e member => by
    rw [(complete e member).property]
    rfl⟩

theorem directionAutocorr_complete : ∃ x, directionAutocorr events = .ok x := by
  obtain ⟨d, series⟩ := directionSeries_complete complete
  exact ⟨_, (bind_ok _ _ _).mpr ⟨d, series, rfl⟩⟩

theorem sizes_complete : events.mapM sizePct = .ok (events.map sizeValue) :=
  mapM_map fun e member => by
    rw [sizePct, (complete e member).property]
    rfl

omit complete in
theorem primitive_ok {v : Json} (converts : v.toNumber.isSome = true) :
    ∃ q, primitive v = .ok q := by
  cases v with
  | null | bool | num | str => exact ⟨_, rfl⟩
  | arr elements =>
    obtain ⟨s, text⟩ := Option.isSome_iff_exists.mp ((Option.isSome_map).symm.trans converts)
    exact ⟨.str s, by simp only [primitive, Json.toText, text]; rfl⟩
  | obj members =>
    have named : Json.hasText members = true := by
      by_contra missing
      rw [Json.toNumber, if_neg missing] at converts
      cases converts
    exact ⟨.str (text "[object Object]"), by simp only [primitive, Json.toText, named]; rfl⟩

omit complete in
theorem meanSize_ok {sizes : List Json} (converts : ∀ v ∈ sizes, v.toNumber.isSome = true) :
    ∃ x, meanSize sizes = .ok x := by
  have parts : ∃ qs, sizes.mapM primitive = .ok qs :=
    (mapM_isOk _ _).mpr fun v member => primitive_ok (converts v member)
  obtain ⟨qs, known⟩ := parts
  simp only [meanSize]
  split
  · exact ⟨zero, rfl⟩
  · exact ⟨_, (bind_ok _ _ _).mpr ⟨_, known, rfl⟩⟩

theorem losses_complete : events.mapM (fun e => Number.abs <$> numeric "pnlBps" e) =
    .ok (events.map fun e => (numberOr (e.get (text "pnlBps"))).abs) :=
  mapM_map fun e member => by
    rw [(complete e member).numeric (complete e member).pnlBps]
    rfl

omit complete in
theorem operand_converts {v : Json} {x : Number} (converted : operand (some v) = .ok x) :
    v.toNumber.isSome = true := by
  cases number : v.toNumber with
  | none =>
    rw [operand, number] at converted
    cases converted
  | some _ => rfl

omit complete in
theorem measured_ok {sizes : List Json} (converts : ∀ v ∈ sizes, v.toNumber.isSome = true) :
    sizes.mapM (fun v => do return (v, ← operand (some v))) =
      .ok (sizes.map fun v => (v, v.toNumber.getD nan)) := by
  refine mapM_map fun v member => ?_
  obtain ⟨x, number⟩ := Option.isSome_iff_exists.mp (converts v member)
  rw [operand, number]
  rfl

/-- Complete events are classified unless the conversion of a size throws. -/
theorem classifyLead_complete :
    (∃ c, classifyLead events = .ok c) ↔ ∀ e ∈ events, Sizeable e := by
  have sorted := complete_byTime complete
  have stated := sizes_complete sorted
  constructor
  · rintro ⟨c, done⟩ e member
    obtain ⟨_, order, done⟩ := (bind_ok _ _ _).mp done
    rw [sortBy_timestamp complete] at order
    cases order
    obtain ⟨_, -, done⟩ := (bind_ok _ _ _).mp done
    obtain ⟨_, -, done⟩ := (bind_ok _ _ _).mp done
    obtain ⟨_, same, done⟩ := (bind_ok _ _ _).mp done
    rw [stated] at same
    cases same
    obtain ⟨_, measured, -⟩ := (bind_ok _ _ _).mp done
    -- the size has been compared with zero
    have compared := (mapM_isOk _ _).mp ⟨_, measured⟩ (sizeValue e)
      (List.mem_map_of_mem ((byTime_perm events).mem_iff.mpr member))
    obtain ⟨_, pair⟩ := compared
    obtain ⟨x, converted, -⟩ := (bind_ok _ _ _).mp pair
    exact operand_converts converted
  · intro sizeable
    obtain ⟨directions, series⟩ := directionSeries_complete sorted
    obtain ⟨autocorr, correlated⟩ := directionAutocorr_complete sorted
    have converts : ∀ v ∈ (byTime events).map sizeValue, v.toNumber.isSome = true := by
      intro v member
      obtain ⟨e, member', rfl⟩ := List.mem_map.mp member
      exact sizeable e ((byTime_perm events).mem_iff.mp member')
    let positive := (((byTime events).map sizeValue).map fun v => (v, v.toNumber.getD nan)).filter
      fun m => zero.lt m.2
    have averaged : ∃ x, meanSize (positive.map (·.1)) = .ok x := by
      refine meanSize_ok fun v member => ?_
      obtain ⟨m, member', rfl⟩ := List.mem_map.mp member
      obtain ⟨v, stands, rfl⟩ := List.mem_map.mp (List.mem_filter.mp member').1
      exact converts v stands
    obtain ⟨x, averaged⟩ := averaged
    exact ⟨_, (bind_ok _ _ _).mpr ⟨_, sortBy_timestamp complete, (bind_ok _ _ _).mpr ⟨_, series,
      (bind_ok _ _ _).mpr ⟨_, correlated, (bind_ok _ _ _).mpr ⟨_, stated,
        (bind_ok _ _ _).mpr ⟨_, measured_ok converts, (bind_ok _ _ _).mpr ⟨_, averaged,
          (bind_ok _ _ _).mpr ⟨_, losses_complete sorted, rfl⟩⟩⟩⟩⟩⟩⟩⟩

theorem detectDrift_complete (setting : Option JsString) (lead : JsString)
    (baseline cycle : Number) : (∃ d, detectDrift setting lead baseline events cycle = .ok d) ↔
      ∀ e ∈ events, Sizeable e := by
  rw [← classifyLead_complete complete]
  simp only [detectDrift]
  constructor
  · rintro ⟨d, done⟩
    obtain ⟨c, classified, -⟩ := (bind_ok _ _ _).mp done
    exact ⟨c, classified⟩
  · rintro ⟨c, classified⟩
    exact ⟨_, (bind_ok _ _ _).mpr ⟨c, classified, rfl⟩⟩

end

end Mirror
