import Mirror.Properties.NotionalCap
import Mirror.Refinement.Payloads

/-!
What the two paths make of a list of followers: both fan a signal out exactly, and they do so in
units that are twelve decimals apart.
-/
namespace Mirror

open Evm hiding Byte
open Js Completion

/-- An accepted message is fanned out exactly: one instruction for each entry with a share of the
base, in the order of the entries, for whom the entry names and with its amount. Each is a call of
the router for that recipient with that amount, or a deposit of that amount at the venue, and the
handler returns them as they are, in this order. -/
theorem fanOut_exact (host : Host) (msg : JsString) (a : Accepted)
    (accepted : matchStageB host msg = .ok a) :
    ∃ (signal : Json) (hint : JsString) (size : ℤ),
      readSignal host msg = .ok signal ∧ venueHint host signal = .ok hint ∧
      sizeBps signal = some size ∧
      FanOut (capOf (route host hint) * size / 10000) (entries signal) a.builds ∧
      (∀ b ∈ a.builds, b.Instructs host (route host hint)) ∧
      List.Forall₂ (fun b v => b.Listed host a.builds.length v) a.builds
        (instructionsOf a.payload) ∧
      ∀ log, (handleMirrorMatchStageB host msg log).1 =
        .ok ⟨some (payloadHex a.payload), 1, none⟩ := by
  obtain ⟨signal, hint, read, hinted, done⟩ := matchStageB_ok accepted
  obtain ⟨instructs, instructed, name, paid⟩ := accepted_calls done
  have listed := payload_lists host instructed name
  rw [← paid] at listed
  have returned := handler_accepted accepted
  cases path : route host hint with
  | some venue =>
    rw [path] at done instructs
    obtain ⟨trade⟩ := buildMockVenueStageB_ok done
    refine ⟨signal, hint, trade.size, read, hinted, trade.sized, ?_, ?_, listed, returned⟩
    · have base : capOf (some venue) * trade.size / 10000 = wholeBase (10 ^ 4) trade.size :=
        base_floor (10 ^ 4) trade.size
      rw [path, base]
      exact trade.fanOut
    · rw [path]
      exact instructs
  | none =>
    rw [path] at done instructs
    obtain ⟨trade⟩ := swapStageB_ok done
    refine ⟨signal, hint, trade.size, read, hinted, trade.sized, ?_, ?_, listed, returned⟩
    · have base : capOf none * trade.size / 10000 = wholeBase (10 ^ 16) trade.size :=
        base_floor (10 ^ 16) trade.size
      rw [path, base]
      exact trade.fanOut
    · rw [path]
      exact instructs

namespace Sample

/-- The message that is this text, given in pieces. -/
def messageOf (pieces : List String) : JsString := bytesToHex (utf8Encode (pieces.flatMap text))

/-- Three followers, for the second of whom nothing is left after truncation. -/
def fanOutRequest : Request :=
  ⟨host, messageOf ["\x7b\"asset\":\"FXRP\",\"direction\":\"SELL\",",
    "\"sizePct\":100,\"followers\":[\x7b\"address\":",
    "\"0x00000000000000000000000000000000000000e1\"",
    ",\"allocationBps\":3333\x7d,\x7b\"address\":",
    "\"0x00000000000000000000000000000000000000e2\"",
    ",\"allocationBps\":0.5\x7d,\x7b\"address\":",
    "\"0x00000000000000000000000000000000000000e3\"",
    ",\"allocationBps\":6667\x7d]\x7d"]⟩

end Sample

theorem fanOut_exact_three :
    ∃ a, matchStageB Sample.fanOutRequest.host Sample.fanOutRequest.msg = .ok a ∧
      ∃ (signal : Json) (hint : JsString) (size : ℤ),
        readSignal Sample.fanOutRequest.host Sample.fanOutRequest.msg = .ok signal ∧
        venueHint Sample.fanOutRequest.host signal = .ok hint ∧
        sizeBps signal = some size ∧
        FanOut (capOf (route Sample.fanOutRequest.host hint) * size / 10000) (entries signal)
          a.builds ∧
        (∀ b ∈ a.builds, b.Instructs Sample.fanOutRequest.host
          (route Sample.fanOutRequest.host hint)) ∧
        List.Forall₂ (fun b v => b.Listed Sample.fanOutRequest.host a.builds.length v) a.builds
          (instructionsOf a.payload) ∧
        ∀ log, (handleMirrorMatchStageB Sample.fanOutRequest.host Sample.fanOutRequest.msg log).1 =
          .ok ⟨some (payloadHex a.payload), 1, none⟩ := by
  have success : succeeds Sample.fanOutRequest.answer = true := by decide +kernel
  obtain ⟨a, accepted⟩ := succeeds_accepted success
  exact ⟨a, accepted,
    fanOut_exact Sample.fanOutRequest.host Sample.fanOutRequest.msg a accepted⟩

/-! ### The two units -/

/-- A unit of the mock path is 10^12 units of the swap path. -/
theorem amountFor_units (size : ℤ) (f : Json) :
    amountFor (wholeBase (10 ^ 16) size) f = 10 ^ 12 * amountFor (wholeBase (10 ^ 4) size) f := by
  cases allocated : allocationBps f with
  | none =>
    simp only [amountFor, allocated, Option.getD_none, mul_zero]
    rfl
  | some part =>
    rw [(amountFor_whole allocated).1, (amountFor_whole allocated).1]
    ring

/-- Where both paths accept a signal they trade for the same followers in the same order, and the
swap path sells 10^12 times the amount of the mock path for each: never the same amount. -/
theorem swap_path_scales (host host' : Host) (signal : Json) (venue : MockVenue) (a b : Accepted)
    (swapped : swapStageB host signal = .ok a)
    (mocked : buildMockVenueStageB host' signal venue = .ok b) :
    List.Forall₂ (fun s m => s.recipient = m.recipient ∧ s.amountIn = 10 ^ 12 * m.amountIn ∧
        s.amountIn ≠ m.amountIn) a.builds b.builds ∧
      a.builds.map Build.amountIn ≠ b.builds.map Build.amountIn := by
  obtain ⟨swap⟩ := swapStageB_ok swapped
  obtain ⟨mock⟩ := buildMockVenueStageB_ok mocked
  have sized : swap.size = mock.size := Option.some.inj (swap.sized.symm.trans mock.sized)
  have onSwap := swap.fanOut.exact
  rw [sized] at onSwap
  -- the same entries have a share on both paths
  have funded : (entries signal).filter (fun f => amountFor (wholeBase (10 ^ 16) mock.size) f ≠ 0) =
      (entries signal).filter (fun f => amountFor (wholeBase (10 ^ 4) mock.size) f ≠ 0) := by
    apply List.filter_congr
    intro f _
    rw [amountFor_units]
    simp
  rw [funded] at onSwap
  have shares : ∀ f ∈ (entries signal).filter
      (fun f => amountFor (wholeBase (10 ^ 4) mock.size) f ≠ 0),
      amountFor (wholeBase (10 ^ 4) mock.size) f ≠ 0 := by
    intro f member
    exact of_decide_eq_true (List.mem_filter.mp member).2
  have onMock := (List.forall₂_and_left _ _).mpr ⟨shares, mock.fanOut.exact⟩
  have paired : List.Forall₂ (fun s m => s.recipient = m.recipient ∧
      s.amountIn = 10 ^ 12 * m.amountIn ∧ s.amountIn ≠ m.amountIn) a.builds b.builds := by
    refine (forall₂_comp onSwap.flip onMock).imp ?_
    rintro s m ⟨f, ⟨named, amount⟩, share, named', amount'⟩
    have scaled : s.amountIn = 10 ^ 12 * m.amountIn := by rw [amount, amount', amountFor_units]
    refine ⟨Option.some.inj (named.symm.trans named'), scaled, ?_⟩
    rw [← amount'] at share
    omega
  refine ⟨paired, ?_⟩
  intro same
  obtain ⟨first, rest, split⟩ := List.exists_cons_of_ne_nil swap.instructed
  rw [split] at paired same
  obtain ⟨m, ms, ⟨-, -, differ⟩, -, split'⟩ := List.forall₂_cons_left_iff.mp paired
  rw [split'] at same
  exact differ (List.cons.inj same).1

namespace Sample

/-- A sale of FXRP for one percent of the cap. -/
def saleSignal : Json :=
  .obj [(text "asset", .str (text "FXRP")), (text "direction", .str (text "SELL")),
    (text "sizePct", natJson 100),
    (text "recipient", .str (text "0x00000000000000000000000000000000000000ee"))]

end Sample

/-- A body that is known to end with an outcome, given the amounts in it. -/
theorem accepted_of_amounts {x : Body Accepted} {amounts : List ℤ}
    (h : x.toOption.map (fun a => a.builds.map Build.amountIn) = some amounts) :
    ∃ a, x = .ok a ∧ a.builds.map Build.amountIn = amounts := by
  cases x with
  | error e => cases h
  | ok a => exact ⟨a, rfl, Option.some.inj h⟩

theorem sale_swapped : ∃ a, swapStageB Sample.host Sample.saleSignal = .ok a ∧
    a.builds.map Build.amountIn = [10 ^ 22] :=
  accepted_of_amounts (by decide +kernel)

theorem sale_mocked : ∃ b, buildMockVenueStageB Sample.host Sample.saleSignal .enosysCdp = .ok b ∧
    b.builds.map Build.amountIn = [10 ^ 10] :=
  accepted_of_amounts (by decide +kernel)

/-- One percent of the cap is 10^22 units on one path and 10^10 on the other. -/
theorem swap_path_scales_sale :
    ∃ a b, swapStageB Sample.host Sample.saleSignal = .ok a ∧
      buildMockVenueStageB Sample.host Sample.saleSignal .enosysCdp = .ok b ∧
      List.Forall₂ (fun s m => s.recipient = m.recipient ∧ s.amountIn = 10 ^ 12 * m.amountIn ∧
        s.amountIn ≠ m.amountIn) a.builds b.builds := by
  obtain ⟨a, onSwap, -⟩ := sale_swapped
  obtain ⟨b, onMock, -⟩ := sale_mocked
  exact ⟨a, b, onSwap, onMock, (swap_path_scales Sample.host Sample.host Sample.saleSignal
    .enosysCdp a b onSwap onMock).1⟩

/-- The sale is not the same on both paths. -/
theorem paths_size_differently :
    ¬∀ (host : Host) (signal : Json) (venue : MockVenue) (a b : Accepted),
      (signal.get (text "asset")).bind Json.asString = some (text "FXRP") →
      asDirection (signal.get (text "direction")) = some .sell →
      swapStageB host signal = .ok a → buildMockVenueStageB host signal venue = .ok b →
      a.builds.map Build.amountIn = b.builds.map Build.amountIn := by
  intro alike
  obtain ⟨a, onSwap, large⟩ := sale_swapped
  obtain ⟨b, onMock, small⟩ := sale_mocked
  have same := alike Sample.host Sample.saleSignal .enosysCdp a b (by decide +kernel)
    (by decide +kernel) onSwap onMock
  rw [large, small] at same
  revert same
  decide

end Mirror
