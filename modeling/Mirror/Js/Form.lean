import Mirror.Js.Hex
import Mirror.Js.Plain
import Mirror.Js.Utf8

/-!
The query of a URL: `encodeURIComponent` and `URLSearchParams`, and that the one reads what the
other writes.
-/
namespace Js

/-- What `encodeURIComponent` leaves as it is. -/
def isUnreserved (c : CodeUnit) : Bool :=
  (0x30 ≤ c.val && c.val ≤ 0x39) || (0x41 ≤ c.val && c.val ≤ 0x5A) ||
    (0x61 ≤ c.val && c.val ≤ 0x7A) || c.val ∈ [0x21, 0x27, 0x28, 0x29, 0x2A, 0x2D, 0x2E, 0x5F, 0x7E]

/-- A hexadecimal digit in upper case. -/
def upperDigit (d : ℕ) : CodeUnit := Fin.ofNat _ (if d < 10 then 0x30 + d else 0x37 + d)

/-- `%XX`. -/
def escapeByte (b : Byte) : JsString := [0x25, upperDigit (b.val / 16), upperDigit (b.val % 16)]

/-- `encodeURIComponent(s)`, which throws at a surrogate on its own. -/
def encodeURIComponent : JsString → Option JsString
  | [] => some []
  | [c] =>
    if 0xD800 ≤ c.val ∧ c.val < 0xE000 then none
    else some (if isUnreserved c then [c] else (encodePoint c.val).flatMap escapeByte)
  | c :: d :: rest =>
    if 0xD800 ≤ c.val ∧ c.val < 0xE000 then
      -- a pair is escaped as the one character it stands for
      if c.val < 0xDC00 ∧ 0xDC00 ≤ d.val ∧ d.val < 0xE000 then
        (encodeURIComponent rest).map
          ((encodePoint (0x10000 + (c.val - 0xD800) * 0x400 + (d.val - 0xDC00))).flatMap
            escapeByte ++ ·)
      else none
    else
      (encodeURIComponent (d :: rest)).map
        ((if isUnreserved c then [c] else (encodePoint c.val).flatMap escapeByte) ++ ·)

/-! ### Reading a query -/

/-- The digit that a byte is in ASCII. -/
def byteDigit (b : Byte) : Option ℕ := digitValue (Fin.castLE (by decide) b)

/-- Bytes with `%XX` read; a `%` that no two digits follow is itself. -/
def percentDecode : List Byte → List Byte
  | [] => []
  | [b] => [b]
  | [b, c] => [b, c]
  | b :: hi :: lo :: rest =>
    if b = 0x25 then
      match byteDigit hi, byteDigit lo with
      | some h, some l => Fin.ofNat _ (h * 16 + l) :: percentDecode rest
      | _, _ => b :: percentDecode (hi :: lo :: rest)
    else b :: percentDecode (hi :: lo :: rest)

/-- A name or a value, in which `+` is a space. -/
def formDecode (s : List Byte) : JsString :=
  utf8Decode (percentDecode (s.map fun b => if b = 0x2B then 0x20 else b))

/-- One part of a query, cut at its first `=`. -/
def formPair (s : List Byte) : JsString × JsString :=
  (formDecode (s.takeWhile (· ≠ 0x3D)), formDecode ((s.dropWhile (· ≠ 0x3D)).tail))

/-- The pairs of `new URLSearchParams(query)`. -/
def searchParams (query : JsString) : List (JsString × JsString) :=
  (((utf8Encode query).splitOn 0x26).filter (· ≠ [])).map formPair

/-- `new URLSearchParams(query).get(name)`; `none` is `null`. -/
def searchParam (query name : JsString) : Option JsString :=
  ((searchParams query).find? fun p => p.1 = name).map (·.2)

/-! ### What the parser of URLs does -/

/-- A byte that it escapes in the query of a special scheme. -/
def inQuerySet (b : Byte) : Bool :=
  b.val ≤ 0x20 || 0x7E < b.val || b.val ∈ [0x22, 0x23, 0x27, 0x3C, 0x3E]

/-- A query, which has no `#`, as it is sent. -/
def urlQuery (s : JsString) : JsString :=
  (utf8Encode s).flatMap fun b => if inQuerySet b then escapeByte b else [Fin.castLE (by decide) b]

/-! ### Escaped text -/

/-- The text stands for the bytes: some characters for their own bytes, any byte escaped. -/
inductive Escapes : JsString → List Byte → Prop
  | nil : Escapes [] []
  | unit {c : CodeUnit} {e : JsString} {bytes : List Byte} (free : isUnreserved c = true)
    (more : Escapes e bytes) : Escapes (c :: e) (Fin.ofNat _ c.val :: bytes)
  | byte (b : Byte) {e : JsString} {bytes : List Byte} (more : Escapes e bytes) :
    Escapes (escapeByte b ++ e) (b :: bytes)

theorem isUnreserved_ascii {c : CodeUnit} (free : isUnreserved c = true) :
    c.val < 0x80 ∧ c.val ∉ [0x25, 0x26, 0x2B, 0x3D, 0x3F] := by
  simp only [isUnreserved, Bool.or_eq_true, Bool.and_eq_true, decide_eq_true_eq, List.mem_cons,
    List.not_mem_nil, or_false] at free ⊢
  omega

theorem upperDigit_val {d : ℕ} (small : d < 16) :
    (upperDigit d).val = if d < 10 then 0x30 + d else 0x37 + d := by
  rw [upperDigit, Fin.val_ofNat]
  split <;> omega

theorem Escapes.escapeBytes (bs : List Byte) {e : JsString} {bytes : List Byte}
    (more : Escapes e bytes) : Escapes (bs.flatMap escapeByte ++ e) (bs ++ bytes) := by
  induction bs with
  | nil => exact more
  | cons b bs ih =>
    rw [List.flatMap_cons, List.append_assoc]
    exact .byte b ih

/-- One character, escaped where it has to be. -/
theorem Escapes.point {c : CodeUnit} {e : JsString} {bytes : List Byte} (more : Escapes e bytes) :
    Escapes ((if isUnreserved c then [c] else (encodePoint c.val).flatMap escapeByte) ++ e)
      (encodePoint c.val ++ bytes) := by
  split
  next free =>
    rw [encodePoint, if_pos (isUnreserved_ascii free).1]
    exact .unit free more
  next => exact more.escapeBytes _

/-- What `encodeURIComponent` makes of a text stands for its bytes. -/
theorem encodeURIComponent_escapes {s e : JsString} (encoded : encodeURIComponent s = some e) :
    WellFormed s ∧ Escapes e (utf8Encode s) := by
  -- along the cases of the function: pairs go together, a lone surrogate has no escape
  induction s using encodeURIComponent.induct generalizing e with
  | case1 =>
    cases encoded
    exact ⟨.nil, .nil⟩
  | case2 c surrogate =>
    rw [encodeURIComponent, if_pos surrogate] at encoded
    cases encoded
  | case3 c single =>
    rw [encodeURIComponent, if_neg single, Option.some.injEq] at encoded
    refine ⟨.unit single .nil, ?_⟩
    have here := @Escapes.point c [] [] .nil
    rw [List.append_nil, encoded, ← utf8Encode] at here
    rwa [utf8Encode_unit single]
  | case4 c d rest surrogate pair ih =>
    rw [encodeURIComponent, if_pos surrogate, if_pos pair, Option.map_eq_some_iff] at encoded
    obtain ⟨later, encoded, rfl⟩ := encoded
    obtain ⟨wellFormed, escapes⟩ := ih encoded
    have lead : IsLeadSurrogate c := ⟨surrogate.1, pair.1⟩
    have trail : IsTrailSurrogate d := pair.2
    refine ⟨.pair lead trail wellFormed, ?_⟩
    rw [utf8Encode_pair lead trail]
    exact escapes.escapeBytes _
  | case5 c d rest surrogate unpaired =>
    rw [encodeURIComponent, if_pos surrogate, if_neg unpaired] at encoded
    cases encoded
  | case6 c d rest single ih =>
    rw [encodeURIComponent, if_neg single, Option.map_eq_some_iff] at encoded
    obtain ⟨later, encoded, rfl⟩ := encoded
    obtain ⟨wellFormed, escapes⟩ := ih encoded
    refine ⟨.unit single wellFormed, ?_⟩
    rw [utf8Encode_unit single]
    exact escapes.point

/-! ### Reading it -/

/-- A text of ASCII without what separates the parts of a query. -/
def IsPart (e : JsString) : Prop :=
  ∀ c ∈ e, c.val < 0x80 ∧ c.val ∉ [0x26, 0x2B, 0x3D, 0x3F]

theorem upperDigit_part {d : ℕ} (small : d < 16) :
    (upperDigit d).val < 0x80 ∧ (upperDigit d).val ∉ [0x26, 0x2B, 0x3D, 0x3F] := by
  rw [upperDigit_val small]
  simp only [List.mem_cons, List.not_mem_nil, or_false]
  split <;> omega

theorem byte_digits (b : Byte) : b.val / 16 < 16 ∧ b.val % 16 < 16 := by
  have := b.isLt
  omega

theorem Escapes.isPart {e : JsString} {bytes : List Byte} (escapes : Escapes e bytes) :
    IsPart e := by
  induction escapes with
  | nil => exact List.forall_mem_nil _
  | unit free _ ih =>
    obtain ⟨small, others⟩ := isUnreserved_ascii free
    exact List.forall_mem_cons.mpr
      ⟨⟨small, fun member => others (List.mem_cons_of_mem _ member)⟩, ih⟩
  | byte b _ ih =>
    have digits := byte_digits b
    rw [escapeByte, List.cons_append, List.cons_append, List.cons_append, List.nil_append]
    exact List.forall_mem_cons.mpr ⟨by decide, List.forall_mem_cons.mpr
      ⟨upperDigit_part digits.1, List.forall_mem_cons.mpr ⟨upperDigit_part digits.2, ih⟩⟩⟩

/-- The bytes of a text of ASCII. -/
def asciiBytes (s : JsString) : List Byte := s.map fun c => Fin.ofNat _ c.val

theorem percentDecode_plain {b : Byte} (plain : b ≠ 0x25) (rest : List Byte) :
    percentDecode (b :: rest) = b :: percentDecode rest := by
  rcases rest with - | ⟨c, - | ⟨d, rest⟩⟩
  · rfl
  · rfl
  · rw [percentDecode, if_neg plain]

theorem byteDigit_upper {d : ℕ} (small : d < 16) :
    byteDigit (Fin.ofNat _ (upperDigit d).val) = some d := by
  have each : ∀ d < 16, byteDigit (Fin.ofNat _ (upperDigit d).val) = some d := by decide
  exact each d small

theorem percentDecode_escape (b : Byte) (rest : List Byte) :
    percentDecode (asciiBytes (escapeByte b) ++ rest) = b :: percentDecode rest := by
  have digits := byte_digits b
  have value : Fin.ofNat 256 (b.val / 16 * 16 + b.val % 16) = b := by
    apply Fin.ext
    have := b.isLt
    rw [Fin.val_ofNat]
    omega
  rw [escapeByte, asciiBytes, List.map_cons, List.map_cons, List.map_cons, List.map_nil,
    List.cons_append, List.cons_append, List.cons_append, List.nil_append, percentDecode,
    if_pos (by decide), byteDigit_upper digits.1, byteDigit_upper digits.2]
  simp only [value]

theorem Escapes.percentDecode {e : JsString} {bytes : List Byte} (escapes : Escapes e bytes) :
    percentDecode (asciiBytes e) = bytes := by
  induction escapes with
  | nil => rfl
  -- no character that stands for itself is a percent sign
  | @unit c _ _ free _ ih =>
    obtain ⟨small, others⟩ := isUnreserved_ascii free
    have plain : (Fin.ofNat 256 c.val : Byte) ≠ 0x25 := by
      intro percent
      have value := congrArg Fin.val percent
      rw [Fin.val_ofNat, Nat.mod_eq_of_lt (by omega)] at value
      exact others (by rw [value]; decide)
    rw [asciiBytes, List.map_cons, percentDecode_plain plain]
    exact congrArg _ ih
  | byte b _ ih =>
    rw [asciiBytes, List.map_append, ← asciiBytes, percentDecode_escape]
    exact congrArg _ ih

theorem mem_asciiBytes {e : JsString} (part : IsPart e) {b : Byte} (member : b ∈ asciiBytes e) :
    b.val ∉ [0x26, 0x2B, 0x3D, 0x3F] := by
  obtain ⟨c, here, rfl⟩ := List.mem_map.mp member
  obtain ⟨small, others⟩ := part c here
  rw [Fin.val_ofNat, Nat.mod_eq_of_lt (by omega)]
  exact others

theorem formDecode_escapes {e : JsString} {bytes : List Byte} (escapes : Escapes e bytes) :
    formDecode (asciiBytes e) = utf8Decode bytes := by
  have unspaced : (asciiBytes e).map (fun b => if b = 0x2B then 0x20 else b) = asciiBytes e := by
    refine (List.map_congr_left fun b member => ?_).trans (List.map_id _)
    have others := mem_asciiBytes escapes.isPart member
    rw [if_neg (fun plus => others (by rw [plus]; decide)), id]
  rw [formDecode, unspaced, escapes.percentDecode]

/-- A name of unreserved characters stands for itself. -/
theorem escapes_name {name : JsString} (free : name.all isUnreserved = true) :
    Escapes name (asciiBytes name) := by
  induction name with
  | nil => exact .nil
  | cons c rest ih =>
    rw [List.all_cons, Bool.and_eq_true] at free
    exact .unit free.1 (ih free.2)

theorem utf8Encode_part {e : JsString} (ascii : ∀ c ∈ e, c.val < 0x80) :
    utf8Encode e = asciiBytes e := utf8Encode_ascii ascii

/-- `new URLSearchParams(name + "=" + e).get(name)`. -/
theorem searchParam_escapes {name e : JsString} (free : name.all isUnreserved = true)
    {bytes : List Byte} (escapes : Escapes e bytes) :
    searchParam (name ++ 0x3D :: e) name = some (utf8Decode bytes) := by
  have named := escapes_name free
  have ascii : ∀ c ∈ name ++ 0x3D :: e, c.val < 0x80 := by
    intro c member
    rcases List.mem_append.mp member with left | right
    · exact (named.isPart c left).1
    · rcases List.mem_cons.mp right with rfl | later
      · decide
      · exact (escapes.isPart c later).1
  have parts : utf8Encode (name ++ 0x3D :: e) = asciiBytes name ++ 0x3D :: asciiBytes e := by
    rw [utf8Encode_part ascii, asciiBytes, List.map_append, List.map_cons]
    rfl
  -- neither the name nor the value can be cut at `&`, nor the name at `=`
  have unsplit : ∀ b ∈ asciiBytes name ++ 0x3D :: asciiBytes e, (b == 0x26) = false := by
    intro b member
    have other : b.val ≠ 0x26 := by
      rcases List.mem_append.mp member with left | right
      · exact fun same => mem_asciiBytes named.isPart left (by rw [same]; decide)
      · rcases List.mem_cons.mp right with rfl | later
        · decide
        · exact fun same => mem_asciiBytes escapes.isPart later (by rw [same]; decide)
    exact beq_false_of_ne fun same => other (congrArg Fin.val same)
  have unequal : ∀ b ∈ asciiBytes name, decide (b ≠ 0x3D) = true := by
    intro b member
    exact decide_eq_true fun same => mem_asciiBytes named.isPart member (by rw [same]; decide)
  have whole : (asciiBytes name ++ 0x3D :: asciiBytes e).splitOn 0x26 =
      [asciiBytes name ++ 0x3D :: asciiBytes e] := List.splitOnP_eq_singleton unsplit
  -- the name is of ASCII, so it is decoded to itself
  have itself : utf8Decode (asciiBytes name) = name := by
    have nameAscii : ∀ c ∈ name, c.val < 0x80 := fun c member => (named.isPart c member).1
    rw [← utf8Encode_part nameAscii, utf8Decode_utf8Encode (wellFormed_of_ascii nameAscii)]
  have nonempty : asciiBytes name ++ 0x3D :: asciiBytes e ≠ [] := by simp
  have pair : formPair (asciiBytes name ++ 0x3D :: asciiBytes e) = (name, utf8Decode bytes) := by
    rw [formPair, List.takeWhile_append_of_pos unequal, List.dropWhile_append_of_pos unequal,
      List.takeWhile_cons_of_neg (by decide), List.append_nil,
      List.dropWhile_cons_of_neg (by decide),
      List.tail_cons, formDecode_escapes named, formDecode_escapes escapes, itself]
  rw [searchParam, searchParams, parts, whole, List.filter_singleton, decide_eq_true nonempty]
  simp [pair]

/-- What the parser of URLs escapes besides is read all the same. -/
theorem Escapes.urlQuery {e : JsString} {bytes : List Byte} (escapes : Escapes e bytes) :
    Escapes (urlQuery e) bytes := by
  have ascii : ∀ c ∈ e, c.val < 0x80 := fun c member => (escapes.isPart c member).1
  rw [Js.urlQuery, utf8Encode_part ascii]
  clear ascii
  induction escapes with
  | nil => exact .nil
  | @unit c e bytes free more ih =>
    have back : Fin.castLE (by decide) (Fin.ofNat 256 c.val) = c := by
      have := (isUnreserved_ascii free).1
      apply Fin.ext
      rw [Fin.val_castLE, Fin.val_ofNat]
      omega
    rw [asciiBytes, List.map_cons, List.flatMap_cons]
    -- an escape of a character that needs none reads the same
    split
    · exact .byte _ ih
    · rw [back]
      exact .unit free ih
  | byte b more ih =>
    have digit : ∀ d < 16, inQuerySet (Fin.ofNat _ (upperDigit d).val) = false ∧
        Fin.castLE (by decide) (Fin.ofNat 256 (upperDigit d).val) = upperDigit d := by decide
    have digits := byte_digits b
    have high := digit _ digits.1
    have low := digit _ digits.2
    have same : (asciiBytes (escapeByte b)).flatMap (fun b => if inQuerySet b then escapeByte b
        else [Fin.castLE (by decide) b]) = escapeByte b := by
      simp only [escapeByte, asciiBytes, List.map_cons, List.map_nil, List.flatMap_cons,
        List.flatMap_nil, high, low, Bool.false_eq_true, if_false]
      rfl
    rw [asciiBytes, List.map_append, List.flatMap_append, ← asciiBytes, same]
    exact .byte b ih

end Js
