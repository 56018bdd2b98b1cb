import Mirror.Js.Hex
import Mirror.Js.Plain
import Mirror.Refinement.FanOut

/-!
What a result says. The hex text of a mock-venue result tells its payload, the payload tells the
calldata of its instructions, and the calldata tells their amounts.
-/
namespace Mirror

open Evm hiding Byte
open Js Completion

/-! ### Calldata -/

/-- Calls to one function are told apart by their arguments. -/
theorem encodeFunctionData_inj {selector : ℕ} {args args' : List ℤ} {data : List Byte}
    (h : encodeFunctionData selector args = some data)
    (h' : encodeFunctionData selector args' = some data) : args = args' := by
  have words := encode_some.mp ⟨data, h⟩
  have words' := encode_some.mp ⟨data, h'⟩
  -- what was encoded are words, so that the calldata tells them
  have bounded : ∀ args : List ℤ, (∀ n ∈ args, IsWord n) → ∀ w ∈ args.map Int.toNat,
      w < 2 ^ 256 := by
    intro args words w member
    obtain ⟨n, among, rfl⟩ := List.mem_map.mp member
    have := (words n among).2
    omega
  have encoded : ∀ {args : List ℤ}, encodeFunctionData selector args = some data →
      beBytes 4 selector ++ abiEncode (args.map Int.toNat) = data := by
    intro args h
    simp only [encodeFunctionData] at h
    split at h
    next => exact Option.some.inj h
    next => cases h
  have same := abiEncode_inj (bounded args words) (bounded args' words')
    (List.append_cancel_left ((encoded h).trans (encoded h').symm))
  -- no argument is negative
  have back : ∀ args : List ℤ, (∀ n ∈ args, IsWord n) →
      (args.map Int.toNat).map (fun n : ℕ => (n : ℤ)) = args := by
    intro args words
    rw [List.map_map]
    conv_rhs => rw [← List.map_id args]
    apply List.map_congr_left
    intro n member
    exact Int.toNat_of_nonneg (words n member).1
  rw [← back args words, same, back args' words']

/-- The argument that is read back out of calldata. -/
theorem encodeFunctionData_word {selector : ℕ} {args : List ℤ} {data : List Byte}
    (h : encodeFunctionData selector args = some data) (i : ℕ) {n : ℤ} (arg : args[i]? = some n) :
    (wordAt (data.drop 4) i : ℤ) = n := by
  have words := encode_some.mp ⟨data, h⟩
  obtain ⟨inside, rfl⟩ := List.getElem?_eq_some_iff.mp arg
  simp only [encodeFunctionData] at h
  split at h
  next =>
    cases Option.some.inj h
    rw [List.drop_left' (beBytes_length 4 selector),
      wordAt_abiEncode _ ?_ i (by rwa [List.length_map]), List.getElem_map]
    · exact Int.toNat_of_nonneg (words _ (List.getElem_mem inside)).1
    · intro w member
      obtain ⟨n, among, rfl⟩ := List.mem_map.mp member
      have := (words n among).2
      omega
  next => cases h

/-- The function that takes deposits. -/
def MockVenue.selector : MockVenue → ℕ
  | .enosysCdp => 0xbedd9e3b
  | .firelightStrategy => 0xb6b55f25

/-- A deposit goes to the venue's contract, and its amount is the first argument. -/
theorem mockCall_ok {host : Host} {venue : MockVenue} {n : ℤ} {target : Address}
    {data : List Byte} (h : mockCall host venue n = .ok (target, data)) :
    (venue.contract host.env).bind getAddress = some target ∧
      ∃ rest, encodeFunctionData venue.selector (n :: rest) = some data := by
  cases venue with
  | enosysCdp =>
    simp only [mockCall, bind_ok, orReturn_ok, orThrow_ok, pure_ok, Prod.mk.injEq] at h
    obtain ⟨_, setting, _, address, _, encoded, rfl, rfl⟩ := h
    exact ⟨Option.bind_eq_some_iff.mpr ⟨_, setting, address⟩, _, encoded⟩
  | firelightStrategy =>
    simp only [mockCall, bind_ok, orReturn_ok, orThrow_ok, pure_ok, Prod.mk.injEq] at h
    obtain ⟨_, setting, _, address, _, encoded, rfl, rfl⟩ := h
    exact ⟨Option.bind_eq_some_iff.mpr ⟨_, setting, address⟩, _, encoded⟩

/-- A deposit at a mock venue tells its amount. -/
theorem mockCall_inj {host : Host} {venue : MockVenue} {n n' : ℤ} {target target' : Address}
    {data : List Byte} (h : mockCall host venue n = .ok (target, data))
    (h' : mockCall host venue n' = .ok (target', data)) : n = n' := by
  obtain ⟨-, _, encoded⟩ := mockCall_ok h
  obtain ⟨-, _, encoded'⟩ := mockCall_ok h'
  exact (List.cons.inj (encodeFunctionData_inj encoded encoded')).1

/-- Every deposit at a venue goes to the same contract. -/
theorem mockCall_target {host : Host} {venue : MockVenue} {n n' : ℤ} {target target' : Address}
    {data data' : List Byte} (h : mockCall host venue n = .ok (target, data))
    (h' : mockCall host venue n' = .ok (target', data')) : target = target' := by
  obtain ⟨here, -⟩ := mockCall_ok h
  obtain ⟨there, -⟩ := mockCall_ok h'
  exact Option.some.inj (here.symm.trans there)

/-! ### What an instruction calls -/

/-- An argument in the calldata of an instruction. -/
def Build.argument (b : Build) (i : ℕ) : ℕ := wordAt (b.data.drop 4) i

/-- The router that is configured for the venue of the swap path. -/
def Host.router (host : Host) : Option Address :=
  (if host.venue = text "blazeswap-v2" then truthy host.env.blazeswapRouterAddress
    else truthy host.env.mockSparkdexRouterAddress).bind getAddress

/-- `swapExactTokensForTokens` on the V2 router, `exactInputSingle` on the V3 router. -/
def Host.swapSelector (host : Host) : ℕ :=
  if host.venue = text "blazeswap-v2" then 0x38ed1739 else 0x414bf389

/-- Where a swap has its amount. The recipient is the fourth argument on both routers. -/
def Host.amountPlace (host : Host) : ℕ := if host.venue = text "blazeswap-v2" then 0 else 5

/-- A swap on the configured router for the recipient of the instruction, of its amount. -/
structure Build.CallsRouter (host : Host) (b : Build) : Prop where
  named : b.venue = host.venue
  target : host.router = some b.target
  selector : b.data.take 4 = beBytes 4 host.swapSelector
  recipient : b.argument 3 = b.recipient.val
  amount : (b.argument host.amountPlace : ℤ) = b.amountIn

/-- A deposit of the amount of the instruction at the contract of the venue. -/
structure Build.CallsVenue (host : Host) (venue : MockVenue) (b : Build) : Prop where
  named : b.venue = venue.name
  target : (venue.contract host.env).bind getAddress = some b.target
  selector : b.data.take 4 = beBytes 4 venue.selector
  amount : (b.argument 0 : ℤ) = b.amountIn

/-- The call of an instruction is what the instruction is for. -/
def Build.Instructs (host : Host) (b : Build) : Option MockVenue → Prop
  | none => b.CallsRouter host
  | some venue => b.CallsVenue host venue

theorem encodeFunctionData_selector {selector : ℕ} {args : List ℤ} {data : List Byte}
    (h : encodeFunctionData selector args = some data) : data.take 4 = beBytes 4 selector := by
  simp only [encodeFunctionData] at h
  split at h
  next =>
    cases Option.some.inj h
    exact List.take_left' (beBytes_length 4 selector)
  next => cases h

theorem mockCall_calls {host : Host} {venue : MockVenue} {b : Build} (named : b.venue = venue.name)
    (called : mockCall host venue b.amountIn = .ok (b.target, b.data)) :
    b.CallsVenue host venue := by
  obtain ⟨target, _, encoded⟩ := mockCall_ok called
  exact ⟨named, target, encodeFunctionData_selector encoded, encodeFunctionData_word encoded 0 rfl⟩

theorem swapCall_calls {host : Host} {b : Build} {pair : Pair} {deadline : ℕ} {minimum : ℤ}
    (named : b.venue = host.venue)
    (called : swapCall host host.venue ⟨pair, b.recipient, deadline, b.amountIn, minimum⟩ =
      .ok (b.target, b.data)) : b.CallsRouter host := by
  simp only [swapCall] at called
  split at called
  next v2 =>
    simp only [blazeswapCall, bind_ok, orReturn_ok, orThrow_ok, pure_ok, Prod.mk.injEq] at called
    obtain ⟨_, router, _, address, _, encoded, rfl, rfl⟩ := called
    have word := encodeFunctionData_word encoded
    refine ⟨named, ?_, ?_, Int.ofNat.inj (word 3 rfl), ?_⟩
    · rw [Host.router, if_pos v2, router]
      exact address
    · rw [Host.swapSelector, if_pos v2]
      exact encodeFunctionData_selector encoded
    · rw [Host.amountPlace, if_pos v2]
      exact word 0 rfl
  next v3 =>
    simp only [sparkdexCall, bind_ok, orReturn_ok, orThrow_ok, pure_ok, Prod.mk.injEq] at called
    obtain ⟨_, router, _, address, _, encoded, rfl, rfl⟩ := called
    have word := encodeFunctionData_word encoded
    refine ⟨named, ?_, ?_, Int.ofNat.inj (word 3 rfl), ?_⟩
    · rw [Host.router, if_neg v3, router]
      exact address
    · rw [Host.swapSelector, if_neg v3]
      exact encodeFunctionData_selector encoded
    · rw [Host.amountPlace, if_neg v3]
      exact word 5 rfl

theorem MockTrade.instructs {host : Host} {signal : Json} {venue : MockVenue} {a : Accepted}
    (trade : MockTrade host signal venue a) :
    ∀ b ∈ a.builds, b.Instructs host (some venue) := by
  intro b member
  rw [trade.builds, List.reduceOption_mem_iff] at member
  obtain ⟨f, -, built⟩ := forall₂_exists trade.built.flip member
  obtain ⟨-, -, -, rounds⟩ := mockBuild_ok built
  obtain ⟨-, -, named, -, called⟩ := rounds b rfl
  exact mockCall_calls named called

theorem SwapTrade.instructs {host : Host} {signal : Json} {a : Accepted}
    (trade : SwapTrade host signal a) : ∀ b ∈ a.builds, b.Instructs host none := by
  intro b member
  rw [trade.builds, List.reduceOption_mem_iff] at member
  obtain ⟨p, -, built⟩ := forall₂_exists trade.built.flip member
  obtain ⟨-, -, -, rounds⟩ := swapBuild_ok built
  obtain ⟨-, -, named, called⟩ := rounds b rfl
  exact swapCall_calls named called

/-! ### What a payload lists -/

/-- The instructions that a payload lists: those of a fan-out, or itself. -/
def instructionsOf (payload : Json) : List Json :=
  match payload.get (text "fanOut") with
  | some (.bool true) => ((payload.get (text "instructions")).bind Json.asArray).getD []
  | _ => [payload]

/-- The value is the instruction, one of so many. -/
structure Build.Listed (host : Host) (count : ℕ) (b : Build) (v : Json) : Prop where
  target : v.get (text "to") = some (.str (host.checksumAddress b.target))
  data : v.get (text "data") = some (.str (bytesToHex b.data))
  named : v.get (text "venue") = some (.str b.venue)
  /-- An only instruction does not say for whom it is, nor how much. -/
  labelled : 1 < count → v.get (text "recipient") = some (.str (host.checksumAddress b.recipient)) ∧
    v.get (text "amountIn") = some (.str (bigIntText b.amountIn))

theorem Build.toJson_listed (host : Host) (count : ℕ) (b : Build) :
    b.Listed host count (b.toJson host) := by
  unfold Build.toJson
  cases b.fee with
  | none => exact ⟨rfl, rfl, rfl, fun _ => ⟨rfl, rfl⟩⟩
  | some fee => exact ⟨rfl, rfl, rfl, fun _ => ⟨rfl, rfl⟩⟩

/-- The payload of an only instruction is the instruction itself. -/
theorem payload_single (host : Host) (b : Build) (venue : JsString) :
    instructionsOf (payload host [b] venue) = [payload host [b] venue] ∧
      b.Listed host 1 (payload host [b] venue) :=
  ⟨rfl, rfl, rfl, rfl, fun several => absurd several (lt_irrefl 1)⟩

/-- A payload lists the instructions that it is made of, in their order. -/
theorem payload_lists (host : Host) {builds : List Build} (instructed : builds ≠ [])
    (venue : JsString) : List.Forall₂ (fun b v => b.Listed host builds.length v) builds
      (instructionsOf (payload host builds venue)) := by
  match builds, instructed with
  | [b], _ => exact .cons (payload_single host b venue).2 .nil
  | b :: c :: rest, _ =>
    change List.Forall₂ _ _ ((b :: c :: rest).map (Build.toJson host))
    rw [List.forall₂_map_right_iff, List.forall₂_same]
    exact fun d _ => d.toJson_listed host _

/-- The instructions of an accepted signal call what they are for, and its payload is theirs. -/
theorem accepted_calls {host : Host} {signal : Json} {a : Accepted} {venue : Option MockVenue}
    (done : match venue with
      | some venue => buildMockVenueStageB host signal venue = .ok a
      | none => swapStageB host signal = .ok a) :
    (∀ b ∈ a.builds, b.Instructs host venue) ∧ a.builds ≠ [] ∧
      ∃ name, a.payload = payload host a.builds name := by
  cases venue with
  | some venue =>
    obtain ⟨trade⟩ := buildMockVenueStageB_ok done
    exact ⟨trade.instructs, trade.instructed, venue.name, trade.paid⟩
  | none =>
    obtain ⟨trade⟩ := swapStageB_ok done
    exact ⟨trade.instructs, trade.instructed, swapStageB_payload done⟩

/-- What a handler returns for a message that is accepted. -/
theorem handler_accepted {host : Host} {msg : JsString} {a : Accepted}
    (accepted : matchStageB host msg = .ok a) (log : List OutcomeRecord) :
    (handleMirrorMatchStageB host msg log).1 = .ok ⟨some (payloadHex a.payload), 1, none⟩ := by
  rw [handleMirrorMatchStageB, accepted]
  rfl

/-! ### Text -/

/-- An address is written in its own digits, in some letter case. -/
def Host.Checksums (host : Host) : Prop :=
  ∀ a : Address, lower (host.checksumAddress a) = text "0x" ++ (beBytes 20 a.val).flatMap hexByte

theorem plain_of_lower {c : CodeUnit} (plain : IsPlainUnit (lowerUnit c)) : IsPlainUnit c := by
  simp only [lowerUnit] at plain
  split at plain
  next capital =>
    refine ⟨by omega, by omega, ?_, ?_⟩
    · rintro rfl
      revert capital
      decide
    · rintro rfl
      revert capital
      decide
  next => exact plain

theorem digitUnit_plain {d : ℕ} (small : d < 16) : IsPlainUnit (digitUnit d) := by
  have each : ∀ d < 16, IsPlainUnit (digitUnit d) := by decide
  exact each d small

theorem hexText_plain (bytes : List Byte) : IsPlainText (text "0x" ++ bytes.flatMap hexByte) := by
  intro c member
  rcases List.mem_append.mp member with mark | digit
  · have marks : (text "0x").all (fun c => decide (IsPlainUnit c)) = true := by decide
    exact of_decide_eq_true (List.all_eq_true.mp marks c mark)
  · obtain ⟨d, small, rfl⟩ := mem_flatMap_hexByte digit
    exact digitUnit_plain small

theorem checksum_plain {host : Host} (checksums : host.Checksums) (a : Address) :
    IsPlainText (host.checksumAddress a) := by
  intro c member
  apply plain_of_lower
  have lowered : lowerUnit c ∈ lower (host.checksumAddress a) := List.mem_map_of_mem member
  rw [checksums a] at lowered
  exact hexText_plain _ _ lowered

theorem checksum_inj {host : Host} (checksums : host.Checksums) {a b : Address}
    (same : host.checksumAddress a = host.checksumAddress b) :
    a = b := by
  -- in lower case the texts are the addresses' digits
  have bytes : beBytes 20 a.val = beBytes 20 b.val := by
    apply flatMap_hexByte_inj
    have lowered := congrArg lower same
    rw [checksums a, checksums b] at lowered
    exact List.append_cancel_left lowered
  apply Fin.ext
  rw [← beValue_beBytes 20 a.val (by have := a.isLt; omega), bytes,
    beValue_beBytes 20 b.val (by have := b.isLt; omega)]

theorem decimal_plain (n : ℕ) : IsPlainText (decimal n) := by
  intro c member
  obtain ⟨d, among, unit⟩ := List.mem_flatMap.mp member
  -- `Nat.repr` writes decimal digits, which are ASCII
  have digits : (Nat.repr n).toList = Nat.toDigits 10 n := by simp [Nat.repr]
  rw [digits] at among
  have digit : d.isDigit = true :=
    Nat.isDigit_of_mem_toDigits (show 0 < 10 by decide) (Nat.le_refl 10) among
  have range : 0x30 ≤ d.toNat ∧ d.toNat ≤ 0x39 := by
    simp only [Char.isDigit, Bool.and_eq_true, decide_eq_true_eq, ge_iff_le,
      UInt32.le_iff_toNat_le] at digit
    exact digit
  rw [utf16, if_pos (by omega), List.mem_singleton] at unit
  have value : c.val = d.toNat := by
    rw [unit, Fin.val_ofNat]
    omega
  refine ⟨by omega, by omega, ?_, ?_⟩
  · rintro rfl
    exact absurd value (by simp; omega)
  · rintro rfl
    exact absurd value (by simp; omega)

theorem bigIntText_plain (n : ℤ) : IsPlainText (bigIntText n) := by
  intro c member
  rcases List.mem_append.mp member with sign | digit
  · split at sign
    · rw [List.mem_singleton] at sign
      rw [sign]
      decide
    · cases sign
  · exact decimal_plain _ c digit

/-! ### Payloads -/

/-- An instruction of a mock venue, as the loop makes it. -/
structure Build.Deposits (host : Host) (venue : MockVenue) (b : Build) : Prop where
  named : b.venue = venue.name
  free : b.fee = none
  call : mockCall host venue b.amountIn = .ok (b.target, b.data)

/-- For whom an instruction is, and how much. -/
def Build.order (b : Build) : Address × ℤ := (b.recipient, b.amountIn)

section

variable {host : Host} {venue : MockVenue}

theorem venueName_plain (venue : MockVenue) : IsPlainText venue.name := by
  have each : venue.name.all (fun c => decide (IsPlainUnit c)) = true := by
    cases venue <;> decide
  intro c member
  exact of_decide_eq_true (List.all_eq_true.mp each c member)

/-- The keys of the payloads. -/
theorem key_plain {k : JsString} (member : k ∈ [text "to", text "data", text "venue", text "fee",
    text "recipient", text "amountIn", text "fanOut", text "instructions"]) : IsPlainText k := by
  have each : [text "to", text "data", text "venue", text "fee", text "recipient", text "amountIn",
      text "fanOut", text "instructions"].all
      (fun k => k.all fun c => decide (IsPlainUnit c)) = true := by decide
  intro c inside
  exact of_decide_eq_true (List.all_eq_true.mp (List.all_eq_true.mp each k member) c inside)

theorem Build.Deposits.plain (checksums : host.Checksums) {b : Build}
    (deposits : b.Deposits host venue) : Json.IsPlain (b.toJson host) := by
  have shape : b.toJson host = .obj [(text "to", .str (host.checksumAddress b.target)),
      (text "data", .str (bytesToHex b.data)), (text "venue", .str venue.name),
      (text "recipient", .str (host.checksumAddress b.recipient)),
      (text "amountIn", .str (bigIntText b.amountIn))] := by
    rw [Build.toJson, deposits.free, deposits.named]
    rfl
  rw [shape]
  refine .obj ?_ ?_
  · intro m member
    apply key_plain
    simp only [List.mem_cons, List.not_mem_nil, or_false] at member ⊢
    rcases member with rfl | rfl | rfl | rfl | rfl <;> simp
  · simp only [List.forall_mem_cons, List.not_mem_nil, false_imp_iff, implies_true, and_true]
    exact ⟨.str (checksum_plain checksums _), .str (hexText_plain _), .str (venueName_plain _),
      .str (checksum_plain checksums _), .str (bigIntText_plain _)⟩

/-- The payload of a mock-venue result needs no escapes. -/
theorem payload_plain (checksums : host.Checksums) {builds : List Build}
    (deposits : ∀ b ∈ builds, b.Deposits host venue) :
    Json.IsPlain (payload host builds venue.name) := by
  simp only [payload]
  split
  next b =>
    have deposit := deposits b (List.mem_singleton_self b)
    rw [deposit.named, deposit.free]
    refine .obj ?_ ?_
    · intro m member
      apply key_plain
      simp only [List.mem_cons, List.not_mem_nil, or_false] at member ⊢
      rcases member with rfl | rfl | rfl | rfl <;> simp
    · simp only [List.forall_mem_cons, List.not_mem_nil, false_imp_iff, implies_true, and_true]
      refine ⟨.str (checksum_plain checksums _), .str (hexText_plain _), .str (venueName_plain _),
        ?_⟩
      have zero : natJson ((none : Option ℕ).getD 0) = .num (.ofRat 0) := by
        rw [natJson, Option.getD_none, Nat.cast_zero]
      rw [zero]
      exact .zero
  next =>
    refine .obj ?_ ?_
    · intro m member
      apply key_plain
      simp only [List.mem_cons, List.not_mem_nil, or_false] at member ⊢
      rcases member with rfl | rfl | rfl <;> simp
    · simp only [List.forall_mem_cons, List.not_mem_nil, false_imp_iff, implies_true, and_true]
      refine ⟨.bool true, .arr ?_, .str (venueName_plain _)⟩
      intro v member
      obtain ⟨b, among, rfl⟩ := List.mem_map.mp member
      exact (deposits b among).plain checksums

end

/-- The hex text of a result tells its payload. -/
theorem payloadHex_inj {p q : Json} (plain : Json.IsPlain p) (plain' : Json.IsPlain q)
    (same : payloadHex p = payloadHex q) : p = q := by
  have bytes := flatMap_hexByte_inj (List.append_cancel_left same)
  exact Json.stringify_inj plain plain'
    (utf8Encode_inj (Json.stringify_ascii plain) (Json.stringify_ascii plain') bytes)

end Mirror
