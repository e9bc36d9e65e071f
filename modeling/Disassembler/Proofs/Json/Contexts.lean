import Disassembler.Proofs.Json.Joining

/-!
# Places in documents

A place in a document is what stands around it: the items or the members before it and behind it,
in each of the arrays and objects that it is in. Whatever is put there, the document has the same
tokens before it and the same tokens behind it. So a document is written as a text before the place,
one at the place, and one behind it.
-/

namespace Disassembler.Json

/-- What stands around a place in a document. -/
inductive Context where
  /-- Nothing: the place is that of the whole document. -/
  | whole
  /-- The place is in an item of an array. -/
  | item (before : List Reading) (inner : Context) (behind : List Reading)
  /-- The place is in the value of a member of an object. -/
  | member (before : List (Option String × Reading)) (key : Option String) (inner : Context)
      (behind : List (Option String × Reading))

namespace Context

/-- The document with a reading at the place. -/
def fill : Context → Reading → Reading
  | .whole, reading => reading
  | .item before inner behind, reading => .array (before ++ inner.fill reading :: behind)
  | .member before key inner behind, reading =>
    .object (before ++ (key, inner.fill reading) :: behind)

/-- The place is that of another place in what is at the place. -/
def comp : Context → Context → Context
  | .whole, further => further
  | .item before inner behind, further => .item before (inner.comp further) behind
  | .member before key inner behind, further => .member before key (inner.comp further) behind

/-- The tokens before the place. -/
def front : Context → List Token
  | .whole => []
  | .item before inner _ =>
    .openArray :: (before.flatMap (fun item => item.tokens ++ [Token.comma]) ++ inner.front)
  | .member before key inner _ =>
    .openObject :: (before.flatMap (fun member => Reading.tokensOfMember member ++ [Token.comma]) ++
      .string key :: .colon :: inner.front)

/-- The tokens behind the place. -/
def back : Context → List Token
  | .whole => []
  | .item _ inner behind =>
    inner.back ++ (behind.flatMap (fun item => Token.comma :: item.tokens) ++ [.closeArray])
  | .member _ _ inner behind =>
    inner.back ++
      (behind.flatMap (fun member => Token.comma :: Reading.tokensOfMember member) ++
        [.closeObject])

end Context

namespace Reading

/-- The tokens of items around one of them. -/
theorem tokensOfItems_append_cons (before : List Reading) (item : Reading)
    (behind : List Reading) :
    tokensOfItems (before ++ item :: behind) =
      before.flatMap (fun item => item.tokens ++ [Token.comma]) ++ item.tokens ++
        behind.flatMap fun item => Token.comma :: item.tokens := by
  induction behind generalizing before item with
  | nil => rw [tokensOfItems_append_singleton, List.flatMap_nil, List.append_nil]
  | cons next rest ih =>
    rw [List.append_cons, ih, List.flatMap_append, List.flatMap_singleton, List.flatMap_cons]
    simp only [List.append_assoc, List.cons_append, List.nil_append]

/-- The tokens of members around one of them. -/
theorem tokensOfMembers_append_cons (before : List (Option String × Reading))
    (member : Option String × Reading) (behind : List (Option String × Reading)) :
    tokensOfMembers (before ++ member :: behind) =
      before.flatMap (fun member => tokensOfMember member ++ [Token.comma]) ++
        tokensOfMember member ++
        behind.flatMap fun member => Token.comma :: tokensOfMember member := by
  induction behind generalizing before member with
  | nil => rw [tokensOfMembers_append_singleton, List.flatMap_nil, List.append_nil]
  | cons next rest ih =>
    rw [List.append_cons, ih, List.flatMap_append, List.flatMap_singleton, List.flatMap_cons]
    simp only [List.append_assoc, List.cons_append, List.nil_append]

end Reading

namespace Context

/-- A document with a reading at a place further inside has all that is around it at the place. -/
theorem fill_comp (context further : Context) (reading : Reading) :
    (context.comp further).fill reading = context.fill (further.fill reading) := by
  induction context with
  | whole => rfl
  | item before inner behind ih => rw [comp, fill, fill, ih]
  | member before key inner behind ih => rw [comp, fill, fill, ih]

/-- A document has the tokens before a place, those at the place and those behind it. -/
theorem tokens_fill (context : Context) (reading : Reading) :
    (context.fill reading).tokens = context.front ++ reading.tokens ++ context.back := by
  induction context with
  | whole => exact (List.append_nil _).symm
  | item before inner behind ih =>
    rw [fill, Reading.tokens, Reading.tokensOfItems_append_cons, ih, front, back]
    simp only [List.append_assoc, List.cons_append]
  | member before key inner behind ih =>
    rw [fill, Reading.tokens, Reading.tokensOfMembers_append_cons, Reading.tokensOfMember, ih,
      front, back]
    simp only [List.append_assoc, List.cons_append]

/-- What stands around a place is intact if a document with that around it is, and then the document
is intact with anything intact at the place. -/
theorem intact_fill {context : Context} {reading : Reading}
    (intact : (context.fill reading).intact = true) {reading' : Reading}
    (intact' : reading'.intact = true) : (context.fill reading').intact = true := by
  induction context with
  | whole => exact intact'
  | item before inner behind ih =>
    have each := List.forall_mem_append.mp (Reading.intact_array.mp intact)
    have inside := List.forall_mem_cons.mp each.2
    refine Reading.intact_array.mpr (List.forall_mem_append.mpr ⟨each.1, ?_⟩)
    exact List.forall_mem_cons.mpr ⟨ih inside.1, inside.2⟩
  | member before key inner behind ih =>
    have each := List.forall_mem_append.mp (Reading.intact_object.mp intact)
    have inside := List.forall_mem_cons.mp each.2
    refine Reading.intact_object.mpr (List.forall_mem_append.mpr ⟨each.1, ?_⟩)
    exact List.forall_mem_cons.mpr ⟨ih inside.1, inside.2⟩

/-- The token before a place is no number. -/
theorem getLast?_front (context : Context) (numeral : Numeral) :
    context.front.getLast? ≠ some (.number numeral) := by
  induction context with
  | whole => simp [front]
  | item before inner behind ih =>
    rw [front, ← List.cons_append, List.getLast?_append]
    cases last : inner.front.getLast? with
    | some token => simpa [last] using ih
    | none =>
      -- The token before the place is then a comma, or the bracket.
      rcases List.eq_nil_or_concat before with rfl | ⟨others, item, rfl⟩
      · simp
      · rw [List.concat_eq_append, List.flatMap_append, List.flatMap_singleton, ← List.cons_append,
          ← List.append_assoc, List.getLast?_append]
        simp
  | member before key inner behind ih =>
    rw [front, ← List.cons_append, List.getLast?_append]
    cases last : inner.front.getLast? with
    | some token =>
      rw [List.getLast?_cons, List.getLast?_cons, last]
      simpa [last] using ih
    | none => simp [List.getLast?_eq_none_iff.mp last]

/-- The token behind a place is a comma, a bracket or a brace, unless the place is that of the whole
document. -/
theorem exists_back {context : Context} (inside : context ≠ .whole) :
    ∃ token c rest, context.back = token :: rest ∧ (token, c) ∈ Token.marks := by
  induction context with
  | whole => exact absurd rfl inside
  | item before inner behind ih =>
    by_cases outer : inner = .whole
    · subst outer
      cases behind with
      | nil => exact ⟨.closeArray, ']', [], rfl, by decide⟩
      | cons item rest => exact ⟨.comma, ',', _, rfl, by decide⟩
    · obtain ⟨token, c, rest, first, known⟩ := ih outer
      exact ⟨token, c, _, by rw [back, first, List.cons_append], known⟩
  | member before key inner behind ih =>
    by_cases outer : inner = .whole
    · subst outer
      cases behind with
      | nil => exact ⟨.closeObject, '}', [], rfl, by decide⟩
      | cons member rest => exact ⟨.comma, ',', _, rfl, by decide⟩
    · obtain ⟨token, c, rest, first, known⟩ := ih outer
      exact ⟨token, c, _, by rw [back, first, List.cons_append], known⟩

end Context

namespace Token

/-- A text in which some tokens are written before others is that of the first ones before that of
the others. -/
theorem Written.split {first second : List Token} {bytes : List UInt8}
    (written : Written (first ++ second) bytes) :
    ∃ before behind, bytes = before ++ behind ∧ Written first before ∧ Written second behind := by
  generalize whole : first ++ second = tokens at written
  induction written generalizing second with
  | nil =>
    obtain ⟨rfl, rfl⟩ := List.append_eq_nil_iff.mp whole
    exact ⟨[], [], rfl, .nil, .nil⟩
  | @blank tokens bytes byte _ blank ih =>
    obtain ⟨before, behind, rfl, start, rest⟩ := ih whole
    exact ⟨before, behind ++ [byte], by rw [List.append_assoc], start, rest.blank blank⟩
  | @token tokens token bytes text written spelled ih =>
    rcases List.eq_nil_or_concat second with rfl | ⟨others, last, rfl⟩
    · rw [List.append_nil] at whole
      rw [whole]
      exact ⟨bytes ++ text, [], by rw [List.append_nil], written.token spelled, .nil⟩
    · rw [List.concat_eq_append, ← List.append_assoc] at whole
      obtain ⟨same, last⟩ := List.append_inj' whole rfl
      obtain ⟨before, behind, rfl, start, rest⟩ := ih same
      rw [List.concat_eq_append, last]
      exact ⟨before, behind ++ text, by rw [List.append_assoc], start, rest.token spelled⟩

/-- A text with a single token has blanks only around it. -/
theorem Written.single {token : Token} {bytes : List UInt8} (written : Written [token] bytes) :
    ∃ before text behind, bytes = before ++ text ++ behind ∧ Written [] before ∧
      token.Spelled text ∧ Written [] behind := by
  generalize one : [token] = tokens at written
  induction written with
  | nil => cases one
  | @blank tokens bytes byte _ blank ih =>
    obtain ⟨before, text, behind, rfl, start, spelled, rest⟩ := ih one
    exact ⟨before, text, behind ++ [byte], by rw [List.append_assoc], start, spelled,
      rest.blank blank⟩
  | @token tokens token' bytes text written spelled ih =>
    obtain ⟨rfl, same⟩ := List.append_eq_singleton_iff.mp one.symm |>.resolve_right (by simp)
    cases same
    exact ⟨bytes, text, [], by rw [List.append_nil], written, spelled, .nil⟩

/-- Only a number is written as a number. -/
theorem Spelled.numeral {numeral : Numeral} {bytes : List UInt8}
    (spelled : (Token.number numeral).Spelled bytes) :
    ∃ text, bytes = octets text ∧ numeral.Spelled text := by
  cases spelled with
  | number spelled => exact ⟨_, rfl, spelled⟩
  | mark known => simp [marks] at known
  | word known => simp [words] at known

/-- A text that starts with a mark has a blank before it, or its character. -/
theorem Written.exists_cons {token : Token} {c : Char} {rest : List Token} {bytes : List UInt8}
    (written : Written (token :: rest) bytes) (known : (token, c) ∈ marks) :
    ∃ byte others, bytes = byte :: others ∧
      (byte ∈ blanks ∨ ∃ c', (token, c') ∈ marks ∧ byte = UInt8.ofNat c'.toNat) := by
  rw [← List.singleton_append] at written
  obtain ⟨start, behind, rfl, first, -⟩ := written.split
  obtain ⟨before, text, after, rfl, blank, spelled, -⟩ := first.single
  have small : ∀ pair ∈ marks, pair.2.toNat < 0x80 := by decide
  cases before with
  | cons byte others => exact ⟨byte, _, rfl, .inl (written_nil_iff.mp blank _ List.mem_cons_self)⟩
  | nil =>
    cases spelled with
    | @mark _ c' known' =>
      rw [octets_singleton (small _ known')]
      exact ⟨_, _, rfl, .inr ⟨c', known', rfl⟩⟩
    | word known' =>
      have noWord : ∀ pair ∈ marks, ∀ pair' ∈ words, pair.1 ≠ pair'.1 := by decide
      exact absurd rfl (noWord _ known _ known')
    | number _ | string _ => simp [marks] at known

end Token

namespace Context

/-- Two texts that stand before a place and behind it. -/
structure Around (context : Context) (before behind : List UInt8) : Prop where
  /-- The first one has the tokens before the place. -/
  front : Token.Written context.front before
  /-- The second one has the tokens behind the place. -/
  back : Token.Written context.back behind

variable {context : Context} {before behind : List UInt8} {numeral : Numeral}

/-- With the text of a number between them, the texts around a place are a document. -/
theorem Around.document (around : context.Around before behind) {text : List Char}
    (intact : (context.fill (.number numeral)).intact = true) (spelled : numeral.Spelled text) :
    (context.fill (.number numeral)).Document (before ++ octets text ++ behind) := by
  have middle : Token.Written [Token.number numeral] (octets text) :=
    Token.Written.nil.token (.number spelled)
  refine ⟨intact, ?_⟩
  rw [tokens_fill]
  exact (around.front.append middle).append around.back

/-- Around the place of a number a document is cut into the texts before the number and behind
it. -/
theorem exists_around {bytes : List UInt8}
    (document : (context.fill (.number numeral)).Document bytes) :
    ∃ before text behind, bytes = before ++ octets text ++ behind ∧
      context.Around before behind ∧ numeral.Spelled text := by
  have written := document.written
  rw [tokens_fill] at written
  obtain ⟨first, behind, rfl, first', back⟩ := written.split
  obtain ⟨before, middle, rfl, front, number⟩ := first'.split
  obtain ⟨blank, spelling, blank', rfl, start, spelled, rest⟩ := number.single
  obtain ⟨text, rfl, digits⟩ := spelled.numeral
  refine ⟨before ++ blank, text, blank' ++ behind, ?_, ⟨?_, rest.append back⟩, digits⟩
  · simp only [List.append_assoc]
  · have spaced := front.append start
    rw [List.append_nil] at spaced
    exact spaced

end Context

end Disassembler.Json
