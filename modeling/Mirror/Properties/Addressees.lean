import Mirror.Properties.FanOut
import Mirror.Refinement.Payloads

/-!
Whom a mock-venue result is for. A fan-out names the recipient of every instruction; a result of
one instruction is its calldata, and a deposit does not say for whom it is.
-/
namespace Mirror

open Evm hiding Byte
open Js Completion

/-- Lists that look alike in one way look alike in any way that it determines. -/
theorem map_eq_of_map_eq {α β γ : Type} {f : α → β} {g : α → γ} {as as' : List α}
    (tells : ∀ a ∈ as, ∀ a' ∈ as', f a = f a' → g a = g a') (same : as.map f = as'.map f) :
    as.map g = as'.map g := by
  induction as generalizing as' with
  | nil =>
    cases as' with
    | nil => rfl
    | cons a' as' => cases same
  | cons a as ih =>
    cases as' with
    | nil => cases same
    | cons a' as' =>
      obtain ⟨head, tail⟩ := List.cons.inj same
      have first := tells a List.mem_cons_self a' List.mem_cons_self head
      have rest := ih (fun b member b' member' =>
        tells b (List.mem_cons_of_mem a member) b' (List.mem_cons_of_mem a' member')) tail
      rw [List.map_cons, List.map_cons, first, rest]

section

variable {host : Host} {venue : MockVenue} {x y : Build}

/-- The instruction for an order is determined by the venue. -/
theorem Build.Deposits.ext (hx : x.Deposits host venue) (hy : y.Deposits host venue)
    (same : x.order = y.order) : x = y := by
  obtain ⟨recipient, amount⟩ := Prod.mk.inj same
  have target := mockCall_target hx.call hy.call
  have called := hy.call
  rw [← amount, hx.call] at called
  have data := (Prod.mk.inj (Except.ok.inj called)).2
  have named := hx.named.trans hy.named.symm
  have free := hx.free.trans hy.free.symm
  cases x
  cases y
  simp only [Build.mk.injEq]
  exact ⟨target, data, named, free, recipient, amount⟩

/-- The data of two deposits agree where their amounts do. -/
theorem Build.Deposits.data_iff (hx : x.Deposits host venue) (hy : y.Deposits host venue) :
    x.data = y.data ↔ x.amountIn = y.amountIn := by
  constructor
  -- the calldata tells the amount, and the amount with the venue the calldata
  · intro same
    have called := hy.call
    rw [← same] at called
    exact mockCall_inj hx.call called
  · intro same
    have called := hy.call
    rw [← same, hx.call] at called
    exact (Prod.mk.inj (Except.ok.inj called)).2

/-- An entry of a fan-out tells its order. -/
theorem toJson_order (checksums : host.Checksums) (hx : x.Deposits host venue)
    (hy : y.Deposits host venue) (same : x.toJson host = y.toJson host) : x.order = y.order := by
  simp only [Build.toJson, hx.free, hy.free, Option.map_none, Option.toList_none,
    List.append_nil, List.cons_append, List.nil_append, Json.obj.injEq, List.cons.injEq,
    Prod.mk.injEq, true_and, and_true, Json.str.injEq] at same
  obtain ⟨-, data, -, recipient, -⟩ := same
  have bytes := flatMap_hexByte_inj (List.append_cancel_left data)
  exact Prod.ext (checksum_inj checksums recipient) ((hx.data_iff hy).mp bytes)

/-- The result of one instruction and a fan-out begin with different keys. -/
theorem single_ne_fanOut (x y z : Build) (rest : List Build) (v w : JsString) :
    payload host [x] v ≠ payload host (y :: z :: rest) w := by
  intro same
  have keys : text "to" = text "fanOut" := (Prod.mk.inj (List.cons.inj (Json.obj.inj same)).1).1
  revert keys
  decide

theorem fanOut_orders (checksums : host.Checksums) {bs bs' : List Build}
    (deposits : ∀ b ∈ bs, b.Deposits host venue) (deposits' : ∀ b ∈ bs', b.Deposits host venue)
    (same : bs.map (Build.toJson host) = bs'.map (Build.toJson host)) :
    bs.map Build.order = bs'.map Build.order :=
  map_eq_of_map_eq (fun b member b' member' =>
    toJson_order checksums (deposits b member) (deposits' b' member')) same

theorem builds_of_orders {bs bs' : List Build} (deposits : ∀ b ∈ bs, b.Deposits host venue)
    (deposits' : ∀ b ∈ bs', b.Deposits host venue)
    (same : bs.map Build.order = bs'.map Build.order) : bs = bs' := by
  have alike : bs.map id = bs'.map id := map_eq_of_map_eq (fun b member b' member' =>
    (deposits b member).ext (deposits' b' member')) same
  rwa [List.map_id, List.map_id] at alike

/-- Two payloads agree for the same orders, or for one order each of the same amount. -/
theorem payload_eq_iff (checksums : host.Checksums) {bs bs' : List Build} (some : bs ≠ [])
    (some' : bs' ≠ []) (deposits : ∀ b ∈ bs, b.Deposits host venue)
    (deposits' : ∀ b ∈ bs', b.Deposits host venue) :
    payload host bs venue.name = payload host bs' venue.name ↔
      bs.map Build.order = bs'.map Build.order ∨
        ∃ x y, bs = [x] ∧ bs' = [y] ∧ x.amountIn = y.amountIn := by
  constructor
  · intro same
    match bs, bs' with
    -- one instruction each: all that can differ is the recipient, which is not written
    | [x], [y] =>
      rw [List.forall_mem_singleton] at deposits deposits'
      have members := (List.cons.inj (List.cons.inj (Json.obj.inj same)).2).1
      have bytes := flatMap_hexByte_inj
        (List.append_cancel_left (Json.str.inj (Prod.mk.inj members).2))
      exact .inr ⟨x, y, rfl, rfl, (deposits.data_iff deposits').mp bytes⟩
    | [x], y :: z :: rest => exact absurd same (single_ne_fanOut x y z rest _ _)
    | y :: z :: rest, [x] => exact absurd same.symm (single_ne_fanOut x y z rest _ _)
    -- two fan-outs list every recipient and amount
    | x :: x' :: xs, y :: y' :: ys =>
      have members := (List.cons.inj (List.cons.inj (Json.obj.inj same)).2).1
      exact .inl (fanOut_orders checksums deposits deposits'
        (Json.arr.inj (Prod.mk.inj members).2))
  · rintro (same | ⟨x, y, rfl, rfl, amount⟩)
    · rw [builds_of_orders deposits deposits' same]
    · rw [List.forall_mem_singleton] at deposits deposits'
      have target := mockCall_target deposits.call deposits'.call
      have data := (deposits.data_iff deposits').mpr amount
      simp only [payload, target, data, deposits.named, deposits'.named, deposits.free,
        deposits'.free]

end

/-! ### Signals -/

/-- Who trades on a signal at a mock venue, and for how much. -/
def orders (signal : Json) : List (Option Address × ℤ) :=
  let base := notionalCap * (sizeBps signal).getD 0 / 10000
  ((entries signal).filter fun f => amountFor base f ≠ 0).map fun f =>
    (addressOf f, amountFor base f)

/-- Each of the signals trades for a single follower, the same amount for different ones. -/
def Confused (signal signal' : Json) : Prop :=
  ∃ p q amount, orders signal = [(p, amount)] ∧ orders signal' = [(q, amount)] ∧ p ≠ q

section

variable {host : Host} {signal : Json} {venue : MockVenue} {a : Accepted}

theorem MockTrade.deposits (trade : MockTrade host signal venue a) :
    ∀ b ∈ a.builds, b.Deposits host venue := by
  intro b member
  rw [trade.builds, List.reduceOption_mem_iff] at member
  obtain ⟨f, -, built⟩ := forall₂_exists trade.built.flip member
  obtain ⟨-, -, -, rounds⟩ := mockBuild_ok built
  obtain ⟨-, -, named, free, call⟩ := rounds b rfl
  exact ⟨named, free, call⟩

theorem MockTrade.orders (trade : MockTrade host signal venue a) :
    orders signal = a.builds.map fun b => (some b.recipient, b.amountIn) := by
  have base : notionalCap * (sizeBps signal).getD 0 / 10000 = wholeBase (10 ^ 4) trade.size := by
    rw [trade.sized, Option.getD_some]
    exact base_floor (10 ^ 4) trade.size
  rw [Mirror.orders, base, ← List.forall₂_eq_eq_eq, List.forall₂_map_left_iff,
    List.forall₂_map_right_iff]
  refine trade.fanOut.exact.imp fun f b order => ?_
  rw [order.1, order.2]

/-- A single order, as it is built. -/
theorem MockTrade.single (trade : MockTrade host signal venue a) {p : Option Address} {n : ℤ}
    (one : Mirror.orders signal = [(p, n)]) :
    ∃ x, a.builds = [x] ∧ p = some x.recipient ∧ n = x.amountIn := by
  rw [trade.orders] at one
  obtain ⟨x, builds, order⟩ := List.map_eq_singleton_iff.mp one
  obtain ⟨rfl, rfl⟩ := Prod.mk.inj order
  exact ⟨x, builds, rfl, rfl⟩

/-- Results that are confused: the same text for different orders. -/
theorem Confused.results (checksums : host.Checksums) {signal' : Json} {a' : Accepted}
    (trade : MockTrade host signal venue a) (trade' : MockTrade host signal' venue a')
    (confused : Confused signal signal') :
    payloadHex a.payload = payloadHex a'.payload ∧
      a.builds.map Build.order ≠ a'.builds.map Build.order := by
  obtain ⟨p, q, n, one, one', differ⟩ := confused
  obtain ⟨x, builds, rfl, rfl⟩ := trade.single one
  obtain ⟨y, builds', rfl, amount⟩ := trade'.single one'
  constructor
  · rw [trade.paid, trade'.paid]
    exact congrArg payloadHex ((payload_eq_iff checksums trade.instructed trade'.instructed
      trade.deposits trade'.deposits).mpr (.inr ⟨x, y, builds, builds', amount⟩))
  · rw [builds, builds']
    intro same
    exact differ (congrArg (fun o => some o.1) (List.cons.inj same).1)

end

/-- For two signals accepted at the same venue, equal results mean equal orders unless each signal
trades for one follower only, the same amount for different ones. -/
theorem result_identifies_iff (host : Host) (checksums : host.Checksums) (venue : MockVenue)
    (signal signal' : Json) (a a' : Accepted)
    (accepted : buildMockVenueStageB host signal venue = .ok a)
    (accepted' : buildMockVenueStageB host signal' venue = .ok a') :
    (payloadHex a.payload = payloadHex a'.payload →
        a.builds.map Build.order = a'.builds.map Build.order) ↔
      ¬Confused signal signal' := by
  obtain ⟨trade⟩ := buildMockVenueStageB_ok accepted
  obtain ⟨trade'⟩ := buildMockVenueStageB_ok accepted'
  constructor
  · intro identifies confused
    obtain ⟨same, differ⟩ := confused.results checksums trade trade'
    exact differ (identifies same)
  · intro clear same
    rw [trade.paid, trade'.paid] at same
    have agree := (payload_eq_iff checksums trade.instructed trade'.instructed trade.deposits
      trade'.deposits).mp (payloadHex_inj (payload_plain checksums trade.deposits)
        (payload_plain checksums trade'.deposits) same)
    rcases agree with orders | ⟨x, y, builds, builds', amount⟩
    · exact orders
    · by_contra differ
      refine clear ⟨some x.recipient, some y.recipient, x.amountIn, ?_, ?_, ?_⟩
      · rw [trade.orders, builds]
        rfl
      · rw [trade'.orders, builds', amount]
        rfl
      · intro recipient
        refine differ ?_
        rw [builds, builds']
        exact congrArg (fun o => [o]) (Prod.ext (Option.some.inj recipient) amount)

namespace Sample

/-- A deposit of one percent of the cap for this recipient. -/
def depositSignal (recipient : String) : Json :=
  .obj [(text "sizePct", natJson 100), (text "recipient", .str (text recipient))]

def depositForAlice : Json := depositSignal "0x00000000000000000000000000000000000000a1"

def depositForBob : Json := depositSignal "0x00000000000000000000000000000000000000b2"

end Sample

theorem sample_checksums : Sample.host.Checksums := by
  intro a
  have mark : lower (text "0x") = text "0x" := by decide
  have digit : ∀ d < 16, lowerUnit (digitUnit d) = digitUnit d := by decide
  have digits : ∀ bytes : List Byte, lower (bytes.flatMap hexByte) = bytes.flatMap hexByte := by
    intro bytes
    rw [lower]
    conv_rhs => rw [← List.map_id (bytes.flatMap hexByte)]
    apply List.map_congr_left
    intro c member
    obtain ⟨d, small, rfl⟩ := mem_flatMap_hexByte member
    exact digit d small
  have written : Sample.host.checksumAddress a =
      text "0x" ++ (beBytes 20 a.val).flatMap hexByte := rfl
  rw [written, lower_append, mark, digits]

/-- The same deposit for two recipients. -/
theorem deposits_accepted :
    ∃ a b, buildMockVenueStageB Sample.host Sample.depositForAlice .enosysCdp = .ok a ∧
      buildMockVenueStageB Sample.host Sample.depositForBob .enosysCdp = .ok b := by
  have alice : ∃ a, buildMockVenueStageB Sample.host Sample.depositForAlice .enosysCdp = .ok a ∧
      a.builds.map Build.amountIn = [10 ^ 10] := accepted_of_amounts (by decide +kernel)
  have bob : ∃ b, buildMockVenueStageB Sample.host Sample.depositForBob .enosysCdp = .ok b ∧
      b.builds.map Build.amountIn = [10 ^ 10] := accepted_of_amounts (by decide +kernel)
  obtain ⟨a, done, -⟩ := alice
  obtain ⟨b, done', -⟩ := bob
  exact ⟨a, b, done, done'⟩

theorem deposits_confused : Confused Sample.depositForAlice Sample.depositForBob :=
  ⟨some 0xa1, some 0xb2, 10 ^ 10, by decide +kernel, by decide +kernel, by decide⟩

/-- A deposit and the same deposit again. -/
theorem result_identifies_iff_again :
    ∃ a, buildMockVenueStageB Sample.host Sample.depositForAlice .enosysCdp = .ok a ∧
      ((payloadHex a.payload = payloadHex a.payload →
          a.builds.map Build.order = a.builds.map Build.order) ↔
        ¬Confused Sample.depositForAlice Sample.depositForAlice) := by
  obtain ⟨a, -, accepted, -⟩ := deposits_accepted
  exact ⟨a, accepted, result_identifies_iff Sample.host sample_checksums .enosysCdp
    Sample.depositForAlice Sample.depositForAlice a a accepted accepted⟩

/-- Two deposits of the same amount for different recipients have the same result. -/
theorem results_confused :
    ¬∀ (host : Host) (venue : MockVenue) (signal signal' : Json) (a a' : Accepted),
      host.Checksums → buildMockVenueStageB host signal venue = .ok a →
      buildMockVenueStageB host signal' venue = .ok a' →
      payloadHex a.payload = payloadHex a'.payload →
      a.builds.map Build.order = a'.builds.map Build.order := by
  intro identifies
  obtain ⟨a, b, done, done'⟩ := deposits_accepted
  obtain ⟨trade⟩ := buildMockVenueStageB_ok done
  obtain ⟨trade'⟩ := buildMockVenueStageB_ok done'
  obtain ⟨same, differ⟩ := deposits_confused.results sample_checksums trade trade'
  exact differ (identifies Sample.host .enosysCdp Sample.depositForAlice Sample.depositForBob a b
    sample_checksums done done' same)

end Mirror
