import Mirror.Properties.SignalReplay

/-!
The notional cap. A signal takes its size as a part of the cap and every follower its allocation
as a part of that, but nothing keeps the parts below the whole.
-/
namespace Mirror

open Js Completion

/-- The cap of the path that takes a signal. -/
def capOf : Option MockVenue → ℤ
  | some _ => notionalCap
  | none => notionalCapWei

/-- The instructions of an accepted signal stay within the cap exactly if its size, in basis
points, times all allocations together is at most the whole. -/
theorem notional_capped_iff (host : Host) (msg : JsString) (a : Accepted)
    (accepted : matchStageB host msg = .ok a) :
    ∃ (signal : Json) (hint : JsString) (size : ℤ) (parts : List ℤ),
      readSignal host msg = .ok signal ∧ venueHint host signal = .ok hint ∧
      sizeBps signal = some size ∧ allocations signal = parts.map some ∧
      ((a.builds.map Build.amountIn).sum ≤ capOf (route host hint) ↔
        size * parts.sum ≤ 10000 * 10000) := by
  obtain ⟨signal, hint, read, hinted, done⟩ := matchStageB_ok accepted
  -- the amounts are the same multiple of size and allocations as the cap
  cases path : route host hint with
  | some venue =>
    rw [path] at done
    obtain ⟨size, parts, sized, allocated, total⟩ := buildMockVenueStageB_amounts done
    refine ⟨signal, hint, size, parts, read, hinted, sized, allocated, ?_⟩
    rw [path, total, mul_assoc]
    simp only [capOf, notionalCap]
    omega
  | none =>
    rw [path] at done
    obtain ⟨size, parts, sized, allocated, total⟩ := swapStageB_amounts done
    refine ⟨signal, hint, size, parts, read, hinted, sized, allocated, ?_⟩
    rw [path, total, mul_assoc]
    simp only [capOf, notionalCapWei]
    omega

theorem capOf_le (venue : Option MockVenue) : capOf venue ≤ notionalCapWei := by
  have mock : notionalCap ≤ notionalCapWei := by decide
  cases venue with
  | none => exact le_rfl
  | some _ => exact mock

/-- A purchase for one percent of the cap. -/
theorem notional_capped_iff_purchase :
    ∃ a, matchStageB Sample.purchaseRequest.host Sample.purchaseRequest.msg = .ok a ∧
      ∃ (signal : Json) (hint : JsString) (size : ℤ) (parts : List ℤ),
        readSignal Sample.purchaseRequest.host Sample.purchaseRequest.msg = .ok signal ∧
        venueHint Sample.purchaseRequest.host signal = .ok hint ∧
        sizeBps signal = some size ∧ allocations signal = parts.map some ∧
        ((a.builds.map Build.amountIn).sum ≤ capOf (route Sample.purchaseRequest.host hint) ↔
          size * parts.sum ≤ 10000 * 10000) := by
  have success : succeeds Sample.purchaseRequest.answer = true := by decide +kernel
  obtain ⟨a, accepted⟩ := succeeds_accepted success
  exact ⟨a, accepted,
    notional_capped_iff Sample.purchaseRequest.host Sample.purchaseRequest.msg a accepted⟩

namespace Sample

/-- A purchase for twice the cap. -/
def oversizedSignal : JsString :=
  message ("\x7b\"asset\":\"FXRP\",\"direction\":\"BUY\",\"sizePct\":20000," ++
    "\"recipient\":\"0x00000000000000000000000000000000000000ee\"\x7d")

end Sample

/-- The amounts of an accepted message. -/
def amountsOf (host : Host) (msg : JsString) : Except Thrown (List ℤ) :=
  (matchStageB host msg).toCall (fun a => a.builds.map Build.amountIn) fun _ => []

/-- A recipient on its own gets twice the cap, which is accepted. -/
theorem notional_not_always_capped :
    ¬∀ (host : Host) (msg : JsString) (a : Accepted) (signal : Json) (hint : JsString),
      matchStageB host msg = .ok a → readSignal host msg = .ok signal →
      venueHint host signal = .ok hint →
      (a.builds.map Build.amountIn).sum ≤ capOf (route host hint) := by
  intro capped
  have amounts : amountsOf Sample.host Sample.oversizedSignal = .ok [2 * notionalCapWei] := by
    decide +kernel
  cases body : matchStageB Sample.host Sample.oversizedSignal with
  | error e =>
    rw [amountsOf, body] at amounts
    cases e <;> cases amounts
  | ok a =>
    obtain ⟨signal, hint, read, hinted, -⟩ := matchStageB_ok body
    have total : a.builds.map Build.amountIn = [2 * notionalCapWei] := by
      rw [amountsOf, body] at amounts
      exact Except.ok.inj amounts
    have below := capped Sample.host Sample.oversizedSignal a signal hint body read hinted
    rw [total] at below
    exact absurd (below.trans (capOf_le _)) (by decide)

end Mirror
