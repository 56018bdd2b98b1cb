import Mirror.Properties.ServingOrder

/-! Greetings and farewells are numbered without gaps, and the state reports how many there are. -/
namespace Mirror

open Evm hiding Byte
open Js

/-- The answer that a greeting or a farewell gets. -/
def numbered (data df : Json) (key numberKey : String) (said : JsString) (number : ℕ) : Answer :=
  finishAction data df (.ok ⟨some (payloadHex (.obj [(text key, .str said),
    (text numberKey, natJson number)])), 1, none⟩)

/-- The state after requests, as it is reported. -/
def snapshot (rs : List IncomingMessage) : Json :=
  .obj [(text "stateVersion", .str (identifier version)),
    (text "state", .obj [(text "greetingCount", natJson (greeted rs).length),
      (text "lastGreeting", .str (((greeted rs).getLast?.map greetingText).getD [])),
      (text "farewellCount", natJson (dismissed rs).length),
      (text "lastFarewell",
        .str (((dismissed rs).getLast?.map fun d => farewellText d.1 d.2).getD []))])]

theorem stateResponse_eq {rs : List IncomingMessage} (few : rs.length ≤ 2 ^ 53) {s : Extension}
    (summarizes : Summarizes rs s) : stateResponse s = snapshot rs := by
  have greetings := summarizes.greetings.count ((List.length_filterMap_le _ _).trans few)
  have farewells := summarizes.farewells.count ((List.length_filterMap_le _ _).trans few)
  have hex : stringToBytes32Hex version = some (identifier version) :=
    stringToBytes32Hex_some.mpr ⟨by decide, rfl⟩
  rw [stateResponse, reportState, greetings, farewells, summarizes.greetings.last,
    summarizes.farewells.last, hex]
  rfl

/-- One more than `n` things are done where `n` of them were. -/
theorem count_add_one {α : Type} {done : List α} {said : α → JsString} {count : Number}
    {last : JsString} (counts : Counts done said count last) (few : done.length < 2 ^ 53) :
    count.add (.ofRat 1) = .ofRat (done.length + 1 : ℕ) := by
  rw [counts.count few.le, ofRat_add_one few]

/-- In whatever order things happen: a request for the state is answered with how many greetings
and farewells were accepted of the requests before it and what was said last, and a greeting or a
farewell that is accepted with its place among those. -/
theorem numbered_in_order (turns : List Server.Turn) :
    let rs := Server.taken turns
    rs.length ≤ 2 ^ 53 → ∀ k r a, rs[k]? = some r → (Server.after turns).answer k = some a →
      (r.ReadsState → a = .ok ⟨200, .json (snapshot (rs.take k))⟩) ∧
      ∀ op data df, r.operation = some (op, data, df) →
        (∀ name, r.effect = .greeting name → a = numbered data df "greeting" "greetingNumber"
          (greetingText name) ((greeted (rs.take k)).length + 1)) ∧
        ∀ name reason, r.effect = .farewell name reason →
          a = numbered data df "farewell" "farewellNumber" (farewellText name reason)
            ((dismissed (rs.take k)).length + 1) := by
  intro rs few k r a here got
  have inside : k < rs.length := (List.getElem?_eq_some_iff.mp here).1
  have summary := summarizes (rs.take k)
  have before : (rs.take k).length < 2 ^ 53 := by
    rw [List.length_take]
    omega
  -- whoever is asked here does not read the log, and so has the answer of its own turn
  have alone : ¬r.MayRead → a = (Desk.serveAlone Server.route (serveAll (rs.take k)).2 r).1 :=
    fun other => answer_alone here other got
  refine ⟨fun reads => ?_, fun op data df reached => ?_⟩
  · have other : ¬r.MayRead := fun log => by
      exact absurd (reads.1.symm.trans log.path) (by decide)
    rw [alone other, serveAlone_state reads, stateResponse_eq before.le summary]
  · have other : ¬r.MayRead := fun log => by
      unfold IncomingMessage.operation at reached
      rw [log.path, if_neg fun action => absurd action.1 (by decide)] at reached
      cases reached
    have effect : r.effect = op.effect r.host (originalMessage df) := by
      rw [IncomingMessage.effect, reached]
    refine ⟨fun name greeting => ?_, fun name reason farewell => ?_⟩
    · obtain ⟨m, rfl, msg, read⟩ := effect_greeting (effect ▸ greeting)
      have next := count_add_one summary.greetings
        ((List.length_filterMap_le _ _).trans_lt before)
      rw [alone other, serveAlone_operation reached, msg]
      simp only [Operation.handler, withText, handleSayHello, Task.run, read]
      rw [next]
      rfl
    · obtain ⟨m, rfl, msg, read⟩ := effect_farewell (effect ▸ farewell)
      have next := count_add_one summary.farewells
        ((List.length_filterMap_le _ _).trans_lt before)
      rw [alone other, serveAlone_operation reached, msg]
      simp only [Operation.handler, withText, handleSayGoodbye, Task.run, read]
      rw [next]
      rfl

namespace Sample

def hello : IncomingMessage :=
  action "GREETING" "SAY_HELLO" (message "\x7b\"name\":\"Bob\"\x7d")

/-- The state is asked for while somebody is greeted. -/
def greeting : List Server.Turn :=
  [[.request hello], [.request (request "GET" "/state" [])], [.advance 0, .advance 1]]

end Sample

theorem numbered_in_order_greeting :
    (Server.after Sample.greeting).answer 1 =
      some (.ok ⟨200, .json (snapshot [Sample.hello])⟩) := by
  obtain ⟨a, got⟩ : ∃ a, (Server.after Sample.greeting).answer 1 = some a :=
    Option.isSome_iff_exists.mp (by decide +kernel)
  have taken : Server.taken Sample.greeting =
      [Sample.hello, Sample.request "GET" "/state" []] := taken_eq (by decide +kernel)
  have few : (Server.taken Sample.greeting).length ≤ 2 ^ 53 := by
    rw [taken]
    decide
  have here : (Server.taken Sample.greeting)[1]? = some (Sample.request "GET" "/state" []) := by
    rw [taken]
    rfl
  rw [got, (numbered_in_order Sample.greeting few 1 _ a here got).1 ⟨by decide, rfl, rfl⟩, taken]
  rfl

end Mirror
