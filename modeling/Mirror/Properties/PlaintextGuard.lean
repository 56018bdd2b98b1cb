import Mirror.Js.Lexeme
import Mirror.Js.Plain
import Mirror.Relayer.TeeProxy

/-!
Which plaintext the proxy refuses. Its markers are texts, and a text of JSON has one of them exactly
where a literal that ends in a field's name is written next to its colon.
-/
namespace Mirror.Relayer

open Js

/-! ### Plaintext -/

/-- A member that only a signal has. -/
def Revealing (m : JsString × Json) : Prop :=
  m.1 = text "direction" ∨ m.1 = text "sizePct" ∨
    m.1 = text "asset" ∧ (m.2 = .str (text "FXRP") ∨ m.2 = .str (text "USDT0"))

/-- Some object in the value, at whatever depth, has such a member. -/
inductive Plaintext : Json → Prop
  | revealed {members : List (JsString × Json)} {m : JsString × Json} (member : m ∈ members)
      (revealing : Revealing m) : Plaintext (.obj members)
  | member {members : List (JsString × Json)} {m : JsString × Json} (member : m ∈ members)
      (within : Plaintext m.2) : Plaintext (.obj members)
  | element {elements : List Json} {v : Json} (element : v ∈ elements) (within : Plaintext v) :
      Plaintext (.arr elements)

/-! ### Markers -/

/-- The text spells a field of a signal as the markers do: its name as written, the colon and, for
the asset, the value next to each other. -/
def SpelledOut (body : JsString) : Prop :=
  Spells (text "direction") [] body ∨ Spells (text "sizePct") [] body ∨
    Spells (text "asset") [.literal (text "FXRP")] body ∨
    Spells (text "asset") [.literal (text "USDT0")] body

theorem direction_isFieldName : IsFieldName (text "direction") := by decide +kernel

theorem sizePct_isFieldName : IsFieldName (text "sizePct") := by decide +kernel

theorem asset_isFieldName : IsFieldName (text "asset") := by decide +kernel

/-- The markers are what the fields are spelled with. -/
theorem markers_written : PLAINTEXT_MARKERS =
    [inQuotes (text "direction") ++ 0x3A :: ([] : List Lexeme).flatMap Lexeme.written,
      inQuotes (text "sizePct") ++ 0x3A :: ([] : List Lexeme).flatMap Lexeme.written,
      inQuotes (text "asset") ++ 0x3A :: [.literal (text "FXRP")].flatMap Lexeme.written,
      inQuotes (text "asset") ++ 0x3A :: [.literal (text "USDT0")].flatMap Lexeme.written] := by
  decide +kernel

/-- A text that is read has a marker exactly if it spells a field out. -/
theorem marked_iff {body : JsString} (reads : (tokens .between body).isSome = true) :
    (∃ m ∈ PLAINTEXT_MARKERS, includes body m = true) ↔ SpelledOut body := by
  have empty (more : JsString) :
      lexemes .outside (([] : List Lexeme).flatMap Lexeme.written ++ more) =
        [] ++ lexemes .outside more := rfl
  have fxrp := lexemes_literal (show IsVerbatim (text "FXRP") by decide +kernel)
  have usdt0 := lexemes_literal (show IsVerbatim (text "USDT0") by decide +kernel)
  unfold SpelledOut
  rw [spells_iff_occurs direction_isFieldName empty reads,
    spells_iff_occurs sizePct_isFieldName empty reads,
    spells_iff_occurs asset_isFieldName fxrp reads,
    spells_iff_occurs asset_isFieldName usdt0 reads, markers_written]
  simp only [List.mem_cons, List.not_mem_nil, or_false, includes_iff_occurs, exists_eq_or_imp,
    exists_eq_left]

theorem tokens_of_parse {body : JsString} {v : Json} (parsed : Json.parse body = some v) :
    (tokens .between body).isSome = true := by
  simp only [Json.parse, Option.bind_eq_bind, Option.bind_eq_some_iff] at parsed
  obtain ⟨ts, read, -⟩ := parsed
  rw [read]
  rfl

/-! ### Plaintext that is written compactly -/

theorem preceded_occurs {α : Type} {code : α → JsString} {sep : CodeUnit} {a : α} {as : List α}
    (member : a ∈ as) : code a <:+: preceded code sep as := by
  obtain ⟨before, after, rfl⟩ := List.append_of_mem member
  refine ⟨preceded code sep before ++ [sep], preceded code sep after, ?_⟩
  simp [preceded]

/-- What is written of an element or a member is part of what is written of the whole. -/
theorem joined_occurs {α : Type} {code : α → JsString} {join : List α → JsString} {sep : CodeUnit}
    (joinCons : ∀ a as, join (a :: as) = code a ++ preceded code sep as) {a : α} {as : List α}
    (member : a ∈ as) : code a <:+: join as := by
  cases as with
  | nil => cases member
  | cons b bs =>
    rw [joinCons]
    rcases List.mem_cons.mp member with rfl | later
    · exact (List.prefix_append _ _).isInfix
    · exact (preceded_occurs later).trans (List.suffix_append _ _).isInfix

theorem element_occurs {v : Json} {elements : List Json} (member : v ∈ elements) :
    Json.stringify v <:+: Json.stringify (.arr elements) := by
  have inside := joined_occurs Json.stringifyElements_cons member
  rw [Json.stringify]
  exact inside.trans ⟨[0x5B], [0x5D], rfl⟩

theorem member_occurs {m : JsString × Json} {members : List (JsString × Json)}
    (member : m ∈ members) : Json.memberText m <:+: Json.stringify (.obj members) := by
  have inside := joined_occurs Json.stringifyMembers_cons member
  rw [Json.stringify]
  exact inside.trans ⟨[0x7B], [0x7D], rfl⟩

/-- What `JSON.stringify` makes of plaintext has a marker. -/
theorem stringify_marked {v : Json} (plaintext : Plaintext v) :
    ∃ m ∈ PLAINTEXT_MARKERS, m <:+: Json.stringify v := by
  -- over the depth of the field: a part of a text is a part of the whole
  induction plaintext with
  | @revealed members m member revealing =>
    have written := member_occurs member
    obtain ⟨key, value⟩ := m
    rcases revealing with rfl | rfl | ⟨rfl, rfl | rfl⟩
    · exact ⟨text "\"direction\":", by decide +kernel,
        (List.prefix_append _ (Json.stringify value)).isInfix.trans written⟩
    · exact ⟨text "\"sizePct\":", by decide +kernel,
        (List.prefix_append _ (Json.stringify value)).isInfix.trans written⟩
    · exact ⟨text "\"asset\":\"FXRP\"", by decide +kernel, written⟩
    · exact ⟨text "\"asset\":\"USDT0\"", by decide +kernel, written⟩
  | member member _ ih =>
    obtain ⟨marker, listed, inside⟩ := ih
    have part := (List.suffix_append (Json.quote _ ++ [0x3A]) _).isInfix.trans
      (member_occurs member)
    exact ⟨marker, listed, inside.trans part⟩
  | element element _ ih =>
    obtain ⟨marker, listed, inside⟩ := ih
    exact ⟨marker, listed, inside.trans (element_occurs element)⟩

/-! ### The proxy -/

section

variable (proxy : TeeProxy) (fetch : Forwarded → Except JsString ProxyResponse)

/-- A body is passed on exactly if it has no marker. -/
theorem postAction_forwarded (body : JsString) :
    (proxy.postAction fetch body).forwarded = [] ↔
      ∃ m ∈ PLAINTEXT_MARKERS, includes body m = true := by
  unfold TeeProxy.postAction assertNoPlaintextDump
  cases found : PLAINTEXT_MARKERS.find? fun m => includes body m with
  | some m =>
    refine iff_of_true rfl ⟨m, List.mem_of_find?_eq_some found, ?_⟩
    exact List.find?_some found
  | none =>
    have clean := List.find?_eq_none.mp found
    refine iff_of_false ?_ fun ⟨m, member, has⟩ => clean m member has
    -- what is forwarded has been answered or has failed, but it was sent
    dsimp only
    split
    · exact List.cons_ne_nil _ _
    · split <;> exact List.cons_ne_nil _ _

/-- Plaintext is not passed on as `JSON.stringify` writes it. -/
theorem stringified_refused {v : Json} (plaintext : Plaintext v) :
    (proxy.postAction fetch (Json.stringify v)).forwarded = [] := by
  obtain ⟨marker, listed, inside⟩ := stringify_marked plaintext
  exact (postAction_forwarded proxy fetch _).mpr
    ⟨marker, listed, (includes_iff_occurs _ _).mpr inside⟩

/-- A `POST /action` whose body is JSON with plaintext in it is refused exactly if the request is
not authorized, or if a field is spelled out as the markers are. -/
theorem plaintext_refused_iff (req : ProxyRequest) (v : Json)
    (path : req.pathname = some (text "/action")) (post : req.method = text "POST")
    (parsed : Json.parse (utf8Decode req.body) = some v) :
    (Plaintext v → (proxy.handler fetch req).forwarded = []) ↔
      (Plaintext v → proxy.authOk req = false ∨ SpelledOut (utf8Decode req.body)) := by
  have noHealth : text "/action" ≠ text "/health" := by decide +kernel
  refine imp_congr_right fun _ => ?_
  rw [← marked_iff (tokens_of_parse parsed), ← postAction_forwarded proxy fetch]
  simp only [TeeProxy.handler, path, if_neg noHealth, post, and_self, if_true]
  cases proxy.authOk req with
  | false => simp
  | true => simp

end

namespace Sample

def proxy : TeeProxy := .configured none none

/-- The matching engine takes what it is sent. -/
def engineTakes (_ : Forwarded) : Except JsString ProxyResponse :=
  .ok ⟨200, text "application/json", text "null"⟩

def action (body : JsString) : ProxyRequest where
  method := text "POST"
  pathname := some (text "/action")
  authorization := none
  body := utf8Encode body

/-- A direction with a blank before its colon. -/
def spaced : JsString := text "\x7b\"direction\" :\"BUY\"\x7d"

/-- A direction written as the markers are. -/
def compact : JsString := text "\x7b\"direction\":\"BUY\"\x7d"

theorem plaintext_of_get {v w : Json} (h : v.get (text "direction") = some w) : Plaintext v := by
  cases v with
  | obj members =>
    simp only [Json.get, Option.map_eq_some_iff] at h
    obtain ⟨m, found, -⟩ := h
    have key := List.find?_some found
    exact .revealed (List.mem_reverse.mp (List.mem_of_find?_eq_some found))
      (.inl (of_decide_eq_true key))
  | null | bool | num | str | arr => cases h

theorem directed (body : JsString)
    (h : ((Json.parse body).bind fun v => v.get (text "direction")).isSome = true) :
    ∃ v, Json.parse body = some v ∧ Plaintext v := by
  obtain ⟨w, found⟩ := Option.isSome_iff_exists.mp h
  obtain ⟨v, parsed, got⟩ := Option.bind_eq_some_iff.mp found
  exact ⟨v, parsed, plaintext_of_get got⟩

end Sample

theorem plaintext_refused_iff_compact :
    ∃ v, Json.parse (utf8Decode (Sample.action Sample.compact).body) = some v ∧
      ((Plaintext v →
          (Sample.proxy.handler Sample.engineTakes (Sample.action Sample.compact)).forwarded = []) ↔
        (Plaintext v → Sample.proxy.authOk (Sample.action Sample.compact) = false ∨
          SpelledOut (utf8Decode (Sample.action Sample.compact).body))) := by
  obtain ⟨v, parsed, -⟩ := Sample.directed (utf8Decode (Sample.action Sample.compact).body)
    (by decide +kernel)
  exact ⟨v, parsed, plaintext_refused_iff Sample.proxy Sample.engineTakes
    (Sample.action Sample.compact) v rfl rfl parsed⟩

/-- With a blank before its colon a direction is passed on. -/
theorem plaintext_forwarded :
    ¬∀ (proxy : TeeProxy) (fetch : Forwarded → Except JsString ProxyResponse) (req : ProxyRequest)
      (v : Json), req.pathname = some (text "/action") → req.method = text "POST" →
      Json.parse (utf8Decode req.body) = some v → Plaintext v →
      (proxy.handler fetch req).forwarded = [] := by
  intro always
  obtain ⟨v, parsed, plaintext⟩ :=
    Sample.directed (utf8Decode (Sample.action Sample.spaced).body) (by decide +kernel)
  have refused := always Sample.proxy Sample.engineTakes (Sample.action Sample.spaced) v rfl rfl
    parsed plaintext
  revert refused
  decide +kernel

end Mirror.Relayer
