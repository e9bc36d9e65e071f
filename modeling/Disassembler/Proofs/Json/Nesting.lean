import Disassembler.Proofs.Json.Recognition

/-!
# Reading texts of any form

Tokens hold a reading exactly if they are its tokens. That a reading is found in its tokens is an
induction over it, with one over the items or the members inside. That nothing else is found is an
invariant of the reader: in each of its states, the tokens that it took are those of the containers
that are still open.
-/

namespace Disassembler.Json

namespace Reading

/-- What holds of a reading if it holds of the readings in it holds of all readings. -/
@[elab_as_elim]
theorem parts_induction {motive : Reading → Prop} (null : motive .null)
    (bool : ∀ value, motive (.bool value)) (number : ∀ numeral, motive (.number numeral))
    (string : ∀ text, motive (.string text))
    (array : ∀ items, (∀ item ∈ items, motive item) → motive (.array items))
    (object : ∀ members, (∀ member ∈ members, motive member.2) → motive (.object members))
    (damaged : motive .damaged) (reading : Reading) : motive reading :=
  @Reading.rec motive (fun items => ∀ item ∈ items, motive item)
    (fun members => ∀ member ∈ members, motive member.2) (fun member => motive member.2)
    null bool number string array object damaged
    (List.forall_mem_nil _) (fun _ _ head tail => List.forall_mem_cons.mpr ⟨head, tail⟩)
    (List.forall_mem_nil _) (fun _ _ head tail => List.forall_mem_cons.mpr ⟨head, tail⟩)
    (fun _ _ value => value) reading

/-- Items are intact if each one is. -/
theorem intactItems_iff {items : List Reading} :
    intactItems items = true ↔ ∀ item ∈ items, item.intact = true := by
  induction items with
  | nil => simp [intactItems]
  | cons item rest ih => rw [intactItems, Bool.and_eq_true, ih, List.forall_mem_cons]

/-- Members are intact if the value of each one is. -/
theorem intactMembers_iff {members : List (Option String × Reading)} :
    intactMembers members = true ↔ ∀ member ∈ members, member.2.intact = true := by
  induction members with
  | nil => simp [intactMembers]
  | cons member rest ih => rw [intactMembers, Bool.and_eq_true, ih, List.forall_mem_cons]

/-- An array is intact if its items are. -/
theorem intact_array {items : List Reading} :
    (Reading.array items).intact = true ↔ ∀ item ∈ items, item.intact = true := intactItems_iff

/-- An object is intact if the values of its members are. -/
theorem intact_object {members : List (Option String × Reading)} :
    (Reading.object members).intact = true ↔ ∀ member ∈ members, member.2.intact = true :=
  intactMembers_iff

/-- The tokens of items in front of another one. -/
theorem tokensOfItems_append_singleton (items : List Reading) (item : Reading) :
    tokensOfItems (items ++ [item]) =
      items.flatMap (fun item => item.tokens ++ [Token.comma]) ++ item.tokens := by
  induction items with
  | nil => rfl
  | cons first rest ih =>
    have split : tokensOfItems (first :: (rest ++ [item])) =
        first.tokens ++ .comma :: tokensOfItems (rest ++ [item]) := by
      cases rest <;> rfl
    rw [List.cons_append, split, ih, List.flatMap_cons, List.append_assoc, List.append_assoc]
    rfl

/-- The tokens of a member. -/
def tokensOfMember (member : Option String × Reading) : List Token :=
  .string member.1 :: .colon :: member.2.tokens

/-- The tokens of members in front of another one. -/
theorem tokensOfMembers_append_singleton (members : List (Option String × Reading))
    (member : Option String × Reading) :
    tokensOfMembers (members ++ [member]) =
      members.flatMap (fun member => tokensOfMember member ++ [Token.comma]) ++
        tokensOfMember member := by
  induction members with
  | nil => rfl
  | cons first rest ih =>
    have split : tokensOfMembers (first :: (rest ++ [member])) =
        tokensOfMember first ++ .comma :: tokensOfMembers (rest ++ [member]) := by
      cases rest <;> rfl
    rw [List.cons_append, split, ih, List.flatMap_cons, List.append_assoc, List.append_assoc]
    rfl

end Reading

namespace Frame

/-- Nothing in a container that is still open is damaged. -/
def Intact : Frame → Prop
  | .array items => ∀ item ∈ items.toList, item.intact = true
  | .object members _ => ∀ member ∈ members.toList, member.2.intact = true

/-- The tokens of a container up to the place of its next value. -/
def opened : Frame → List Token
  | .array items => .openArray :: items.toList.flatMap fun item => item.tokens ++ [Token.comma]
  | .object members key =>
    .openObject :: (members.toList.flatMap fun member =>
      Reading.tokensOfMember member ++ [Token.comma]) ++ [.string key, .colon]

end Frame

namespace Reader

/-- A reading is found if its tokens complete it, inside whatever containers it stands. -/
def Completes (reading : Reading) : Prop :=
  ∀ frames, reading.tokens.foldl step (.inside frames .value) = complete reading frames

/-- The first item of an array is read like those after it. -/
theorem Completes.item {reading : Reading} (completes : Completes reading) (items : Array Reading)
    (frames : List Frame) {expected : Expected} (atItem : expected = .item ∨ expected = .value) :
    reading.tokens.foldl step (.inside (.array items :: frames) expected) =
      complete reading (.array items :: frames) := by
  rw [← completes]
  rcases atItem with rfl | rfl
  · cases reading <;> rfl
  · rfl

/-- The items of an array are read in their order, behind those that it has. -/
theorem foldl_items (items : List Reading) (each : ∀ item ∈ items, Completes item)
    (nonempty : items ≠ []) (before : List Reading) (frames : List Frame) {expected : Expected}
    (atItem : expected = .item ∨ expected = .value) :
    (Reading.tokensOfItems items ++ [Token.closeArray]).foldl step
        (.inside (.array before.toArray :: frames) expected) =
      complete (.array (before ++ items)) frames := by
  induction items generalizing before expected with
  | nil => exact absurd rfl nonempty
  | cons item rest ih =>
    obtain ⟨first, others⟩ := List.forall_mem_cons.mp each
    have added : complete item (.array before.toArray :: frames) =
        .inside (.array (before ++ [item]).toArray :: frames) .separator := by
      rw [complete, Frame.add, List.push_toArray]
    cases rest with
    | nil =>
      rw [Reading.tokensOfItems, List.foldl_append, first.item _ _ atItem, added]
      rfl
    | cons second rest =>
      have tokens : Reading.tokensOfItems (item :: second :: rest) ++ [Token.closeArray] =
          item.tokens ++ .comma :: (Reading.tokensOfItems (second :: rest) ++
            [Token.closeArray]) := List.append_assoc _ _ _
      rw [tokens, List.foldl_append, first.item _ _ atItem, added, List.foldl_cons]
      refine (ih others (List.cons_ne_nil _ _) _ (Or.inr rfl)).trans ?_
      rw [List.append_assoc]
      rfl

/-- The members of an object are read in their order, behind those that it has. -/
theorem foldl_members (members : List (Option String × Reading))
    (each : ∀ member ∈ members, Completes member.2) (nonempty : members ≠ [])
    (before : List (Option String × Reading)) (frames : List Frame) {expected : Expected}
    (atKey : expected = .member ∨ expected = .key) :
    (Reading.tokensOfMembers members ++ [Token.closeObject]).foldl step
        (.inside (.object before.toArray none :: frames) expected) =
      complete (.object (before ++ members)) frames := by
  induction members generalizing before expected with
  | nil => exact absurd rfl nonempty
  | cons member rest ih =>
    obtain ⟨key, value⟩ := member
    obtain ⟨first, others⟩ := List.forall_mem_cons.mp each
    have keyed (tokens : List Token) :
        (Token.string key :: .colon :: tokens).foldl step
            (.inside (.object before.toArray none :: frames) expected) =
          tokens.foldl step (.inside (.object before.toArray key :: frames) .value) := by
      rcases atKey with rfl | rfl <;> rfl
    have added : complete value (.object before.toArray key :: frames) =
        .inside (.object (before ++ [(key, value)]).toArray none :: frames) .separator := by
      rw [complete, Frame.add, List.push_toArray]
    cases rest with
    | nil =>
      rw [Reading.tokensOfMembers, List.cons_append, List.cons_append, keyed, List.foldl_append,
        first, added]
      rfl
    | cons second rest =>
      have tokens : Reading.tokensOfMembers ((key, value) :: second :: rest) ++
            [Token.closeObject] =
          .string key :: .colon :: (value.tokens ++
            .comma :: (Reading.tokensOfMembers (second :: rest) ++ [Token.closeObject])) :=
        congrArg (_ :: _ :: ·) (List.append_assoc _ _ _)
      rw [tokens, keyed, List.foldl_append, first, added, List.foldl_cons]
      refine (ih others (List.cons_ne_nil _ _) _ (Or.inr rfl)).trans ?_
      rw [List.append_assoc]
      rfl

/-- The tokens of a reading complete it. -/
theorem completes {reading : Reading} (intact : reading.intact = true) : Completes reading := by
  induction reading using Reading.parts_induction with
  | null | bool _ | number _ | string _ => exact fun frames => rfl
  | damaged => cases intact
  | array items ih =>
    intro frames
    have each := Reading.intact_array.mp intact
    cases items with
    | nil => rfl
    | cons item rest =>
      exact foldl_items (item :: rest) (fun item among => ih item among (each item among))
        (List.cons_ne_nil _ _) [] frames (Or.inl rfl)
  | object members ih =>
    intro frames
    have each := Reading.intact_object.mp intact
    cases members with
    | nil => rfl
    | cons member rest =>
      exact foldl_members (member :: rest) (fun member among => ih member among (each member among))
        (List.cons_ne_nil _ _) [] frames (Or.inl rfl)

/-- The tokens of containers, the innermost one first, up to the place of the next value. -/
def stacked : List Frame → List Token
  | [] => []
  | frame :: frames => stacked frames ++ frame.opened

/-- The tokens that a reader has taken when it is in a state. -/
inductive Took : Reader → List Token → Prop where
  /-- At the place of a value it has taken those of the containers that are open. -/
  | value {frames : List Frame} : (∀ frame ∈ frames, frame.Intact) →
      Took (.inside frames .value) (stacked frames)
  /-- At the first item of an array it has taken the bracket too. -/
  | item {frames : List Frame} : (∀ frame ∈ frames, frame.Intact) →
      Took (.inside (.array #[] :: frames) .item) (stacked frames ++ [.openArray])
  /-- Behind an item it has taken the items. -/
  | items {frames : List Frame} {items : List Reading} {last : Reading} :
      (∀ frame ∈ frames, frame.Intact) → (∀ item ∈ items ++ [last], item.intact = true) →
      Took (.inside (.array (items ++ [last]).toArray :: frames) .separator)
        (stacked frames ++ .openArray :: Reading.tokensOfItems (items ++ [last]))
  /-- At the first member of an object it has taken the brace. -/
  | member {frames : List Frame} {key : Option String} : (∀ frame ∈ frames, frame.Intact) →
      Took (.inside (.object #[] key :: frames) .member) (stacked frames ++ [.openObject])
  /-- Behind a member it has taken the members. -/
  | members {frames : List Frame} {key : Option String}
      {members : List (Option String × Reading)} {last : Option String × Reading} :
      (∀ frame ∈ frames, frame.Intact) → (∀ member ∈ members ++ [last], member.2.intact = true) →
      Took (.inside (.object (members ++ [last]).toArray key :: frames) .separator)
        (stacked frames ++ .openObject :: Reading.tokensOfMembers (members ++ [last]))
  /-- At a key it has taken the members and the comma behind them. -/
  | key {frames : List Frame} {key : Option String} {members : Array (Option String × Reading)} :
      (∀ frame ∈ frames, frame.Intact) → (∀ member ∈ members.toList, member.2.intact = true) →
      Took (.inside (.object members key :: frames) .key)
        (stacked frames ++ .openObject :: members.toList.flatMap fun member =>
          Reading.tokensOfMember member ++ [Token.comma])
  /-- Behind a key it has taken the key. -/
  | colon {frames : List Frame} {key : Option String}
      {members : Array (Option String × Reading)} :
      (∀ frame ∈ frames, frame.Intact) → (∀ member ∈ members.toList, member.2.intact = true) →
      Took (.inside (.object members key :: frames) .colon)
        (stacked frames ++ (.openObject :: (members.toList.flatMap fun member =>
          Reading.tokensOfMember member ++ [Token.comma]) ++ [.string key]))
  /-- Behind the value it has taken those of the value. -/
  | done {root : Reading} : root.intact = true → Took (.done root false) root.tokens
  /-- Behind damage it has taken anything. -/
  | damaged {root : Reading} {trailing : Bool} {tokens : List Token} : root.intact ≠ true →
      Took (.done root trailing) tokens
  /-- Behind more than a value it has taken anything. -/
  | trailing {root : Reading} {tokens : List Token} : Took (.done root true) tokens

/-- Damage stays in all containers around it. -/
theorem collapse_damaged {inner : Reading} (damaged : inner.intact ≠ true) (frames : List Frame) :
    (collapse inner frames).intact ≠ true := by
  induction frames generalizing inner with
  | nil => exact damaged
  | cons frame frames ih =>
    refine ih fun intact => damaged ?_
    cases frame with
    | array items =>
      have each := Reading.intact_array.mp intact
      rw [Array.toList_push] at each
      exact each inner (List.mem_append_right _ (List.mem_singleton_self _))
    | object members key =>
      have each := Reading.intact_object.mp intact
      rw [Array.toList_push] at each
      exact each (key, inner) (List.mem_append_right _ (List.mem_singleton_self _))

/-- Damage in the place of a value ends the reading. -/
theorem took_damage {frames : List Frame} {tokens : List Token} : Took (damage frames) tokens :=
  .damaged (collapse_damaged (by decide) frames)

variable {frames : List Frame} {token : Token} {tokens : List Token}

/-- A value that is complete is taken with its tokens. -/
theorem took_complete (open' : ∀ frame ∈ frames, frame.Intact) (reading : Reading)
    (intact : reading.intact = true) :
    Took (complete reading frames) (stacked frames ++ reading.tokens) := by
  cases frames with
  | nil => exact .done intact
  | cons frame frames =>
    obtain ⟨inner, outer⟩ := List.forall_mem_cons.mp open'
    cases frame with
    | array items =>
      have taken : stacked (.array items :: frames) ++ reading.tokens =
          stacked frames ++ .openArray :: Reading.tokensOfItems (items.toList ++ [reading]) := by
        rw [Reading.tokensOfItems_append_singleton, stacked, List.append_assoc]
        rfl
      have added : items.push reading = (items.toList ++ [reading]).toArray := by
        rw [← Array.toList_push, Array.toArray_toList]
      rw [taken, complete, Frame.add, added]
      refine .items outer (List.forall_mem_append.mpr ⟨inner, ?_⟩)
      exact List.forall_mem_singleton.mpr intact
    | object members key =>
      have taken : stacked (.object members key :: frames) ++ reading.tokens =
          stacked frames ++
            .openObject :: Reading.tokensOfMembers (members.toList ++ [(key, reading)]) := by
        rw [Reading.tokensOfMembers_append_singleton, stacked, List.append_assoc, Frame.opened,
          List.append_assoc, List.cons_append]
        rfl
      have added : members.push (key, reading) =
          (members.toList ++ [(key, reading)]).toArray := by
        rw [← Array.toList_push, Array.toArray_toList]
      rw [taken, complete, Frame.add, added]
      refine .members outer (List.forall_mem_append.mpr ⟨inner, ?_⟩)
      exact List.forall_mem_singleton.mpr intact

/-- A token at the place of a value is taken. -/
theorem took_value (open' : ∀ frame ∈ frames, frame.Intact) (token : Token) :
    Took (value frames token) (stacked frames ++ [token]) := by
  cases token with
  | openArray => exact .item open'
  | openObject => exact .member open'
  | null => exact took_complete open' .null rfl
  | bool truth => exact took_complete open' (.bool truth) rfl
  | number numeral => exact took_complete open' (.number numeral) rfl
  | string text => exact took_complete open' (.string text) rfl
  | closeArray | closeObject | comma | colon | fault => exact took_damage

/-- A token at the place of a key is taken. -/
theorem took_key (members : Array (Option String × Reading)) (pending : Option String)
    (outer : ∀ frame ∈ frames, frame.Intact)
    (inner : ∀ member ∈ members.toList, member.2.intact = true) (token : Token) :
    Took (key (.object members pending :: frames) token)
      (stacked frames ++ (.openObject :: members.toList.flatMap fun member =>
        Reading.tokensOfMember member ++ [Token.comma]) ++ [token]) := by
  cases token with
  | string text =>
    rw [List.append_assoc]
    exact .colon outer inner
  | openArray | closeArray | openObject | closeObject | comma | colon | null | bool _ | number _
    | fault => exact took_damage

/-- Each token keeps what the reader has taken. -/
theorem Took.step {reader : Reader} (took : Took reader tokens) (token : Token) :
    Took (reader.step token) (tokens ++ [token]) := by
  cases took with
  | value open' => exact took_value open' token
  | @item frames outer =>
    have inner : (Frame.array #[]).Intact := List.forall_mem_nil _
    have first := took_value (List.forall_mem_cons.mpr ⟨inner, outer⟩) token
    cases token with
    | closeArray =>
      rw [List.append_assoc]
      exact took_complete outer (.array []) rfl
    | openArray | openObject | closeObject | comma | colon | null | bool _ | number _ | string _
      | fault => exact first
  | @items frames items last outer inner =>
    cases token with
    | comma =>
      have taken : stacked frames ++ .openArray :: Reading.tokensOfItems (items ++ [last]) ++
          [Token.comma] = stacked (.array (items ++ [last]).toArray :: frames) := by
        rw [Reading.tokensOfItems_append_singleton, stacked, Frame.opened, List.flatMap_append,
          List.flatMap_singleton]
        simp only [List.append_assoc, List.cons_append]
      rw [taken]
      exact .value (List.forall_mem_cons.mpr ⟨inner, outer⟩)
    | closeArray =>
      rw [List.append_assoc]
      exact took_complete outer _ (Reading.intact_array.mpr inner)
    | openArray | openObject | closeObject | colon | null | bool _ | number _ | string _ | fault =>
      exact took_damage
  | @member frames pending outer =>
    have first := took_key #[] pending outer (List.forall_mem_nil _) token
    cases token with
    | closeObject =>
      rw [List.append_assoc]
      exact took_complete outer (.object []) rfl
    | openArray | closeArray | openObject | comma | colon | null | bool _ | number _ | string _
      | fault => exact first
  | @members frames pending members last outer inner =>
    cases token with
    | comma =>
      have taken : stacked frames ++ .openObject :: Reading.tokensOfMembers (members ++ [last]) ++
          [Token.comma] = stacked frames ++ .openObject ::
            (members ++ [last]).flatMap fun member =>
              Reading.tokensOfMember member ++ [Token.comma] := by
        rw [Reading.tokensOfMembers_append_singleton, List.flatMap_append,
          List.flatMap_singleton]
        simp only [List.append_assoc, List.cons_append]
      rw [taken]
      exact .key outer inner
    | closeObject =>
      rw [List.append_assoc]
      exact took_complete outer _ (Reading.intact_object.mpr inner)
    | openArray | closeArray | openObject | colon | null | bool _ | number _ | string _ | fault =>
      exact took_damage
  | key outer inner => exact took_key _ _ outer inner token
  | @colon frames key members outer inner =>
    cases token with
    | colon =>
      rw [List.append_assoc, List.append_assoc]
      show Took (.inside (.object members key :: frames) .value) _
      exact .value (List.forall_mem_cons.mpr ⟨inner, outer⟩)
    | openArray | closeArray | openObject | closeObject | comma | null | bool _ | number _
      | string _ | fault => exact took_damage
  | done intact => exact .trailing
  | damaged damaged => exact .damaged damaged
  | trailing => exact .trailing

/-- What the reader has taken at the end of tokens are the tokens. -/
theorem took_foldl (tokens : List Token) : Took (tokens.foldl step (.inside [] .value)) tokens := by
  have behind (reader : Reader) (before : List Token) (took : Took reader before) :
      Took (tokens.foldl Reader.step reader) (before ++ tokens) := by
    induction tokens generalizing reader before with
    | nil =>
      rw [List.append_nil]
      exact took
    | cons token rest ih =>
      rw [List.append_cons]
      exact ih _ _ (took.step token)
  exact behind (.inside [] .value) [] (.value (List.forall_mem_nil _))

/-- An intact reading at the end of what the reader has taken has the tokens that it took. -/
theorem Took.finish {reader : Reader} (took : Took reader tokens) {root : Reading}
    (finished : reader.finish = (root, false)) (intact : root.intact = true) :
    tokens = root.tokens := by
  cases took with
  | done _ =>
    cases finished
    rfl
  | damaged damaged =>
    cases finished
    exact absurd intact damaged
  | trailing => cases finished
  | value _ | item _ | items _ _ | member _ | members _ _ | key _ _ | colon _ _ =>
    cases finished
    exact absurd intact (collapse_damaged (by decide) _)

end Reader

namespace Reading

/-- The tokens of a reading hold the reading. -/
theorem ofTokens_tokens {reading : Reading} (intact : reading.intact = true) :
    ofTokens reading.tokens = (reading, false) := by
  unfold ofTokens
  rw [Reader.completes intact]
  rfl

/-- Tokens that hold an intact reading, and nothing behind it, are its tokens. -/
theorem tokens_of_ofTokens {tokens : List Token} {reading : Reading}
    (holds : ofTokens tokens = (reading, false)) (intact : reading.intact = true) :
    tokens = reading.tokens :=
  (Reader.took_foldl tokens).finish holds intact

/-- A token other than a number may stand between any tokens. -/
theorem isChain_around {tokens tokens' : List Token} {token : Token}
    (noNumber : ∀ numeral, token ≠ .number numeral) (before : tokens.IsChain Lexer.Apart)
    (after : tokens'.IsChain Lexer.Apart) : (tokens ++ token :: tokens').IsChain Lexer.Apart := by
  refine before.append (after.cons fun other _ numeral _ same _ => noNumber numeral same) ?_
  intro last _ first found
  cases found
  exact fun _ numeral _ same => noNumber numeral same

/-- No two numbers follow each other in the tokens of a reading. -/
theorem isChain_tokens (reading : Reading) : reading.tokens.IsChain Lexer.Apart := by
  induction reading using Reading.parts_induction with
  | null | bool _ | number _ | string _ | damaged => exact .singleton _
  | array items ih =>
    have each : (tokensOfItems items).IsChain Lexer.Apart := by
      induction items with
      | nil => exact .nil
      | cons item rest inner =>
        obtain ⟨first, others⟩ := List.forall_mem_cons.mp ih
        cases rest with
        | nil => exact first
        | cons second rest => exact isChain_around (by simp) first (inner others)
    exact isChain_around (by simp) .nil (isChain_around (by simp) each .nil)
  | object members ih =>
    have each : (tokensOfMembers members).IsChain Lexer.Apart := by
      induction members with
      | nil => exact .nil
      | cons member rest inner =>
        obtain ⟨first, others⟩ := List.forall_mem_cons.mp ih
        have keyed : (tokensOfMember member).IsChain Lexer.Apart :=
          isChain_around (by simp) (.singleton _) first
        cases rest with
        | nil => exact keyed
        | cons second rest => exact isChain_around (by simp) keyed (inner others)
    exact isChain_around (by simp) .nil (isChain_around (by simp) each .nil)

/-- There is no fault in the tokens of an intact reading. -/
theorem fault_notMem_tokens {reading : Reading} (intact : reading.intact = true) :
    .fault ∉ reading.tokens := by
  induction reading using Reading.parts_induction with
  | null | bool _ | number _ | string _ => simp [tokens]
  | damaged => cases intact
  | array items ih =>
    have each := intact_array.mp intact
    have inner : .fault ∉ tokensOfItems items := by
      clear intact
      induction items with
      | nil => exact List.not_mem_nil
      | cons item rest others =>
        rw [List.forall_mem_cons] at ih each
        cases rest with
        | nil => exact ih.1 each.1
        | cons second rest =>
          have behind := others ih.2 each.2
          simp [tokensOfItems, ih.1 each.1, behind]
    simp [tokens, inner]
  | object members ih =>
    have each := intact_object.mp intact
    have inner : .fault ∉ tokensOfMembers members := by
      clear intact
      induction members with
      | nil => exact List.not_mem_nil
      | cons member rest others =>
        rw [List.forall_mem_cons] at ih each
        cases rest with
        | nil => simp [tokensOfMembers, ih.1 each.1]
        | cons second rest =>
          have behind := others ih.2 each.2
          simp [tokensOfMembers, ih.1 each.1, behind]
    simp [tokens, inner]

/-- A text is a document of a reading exactly if it is read as that, with nothing behind it. -/
theorem document_iff {reading : Reading} {bytes : List UInt8} :
    reading.Document bytes ↔ ofBytes bytes = (reading, false) ∧ reading.intact = true := by
  constructor
  · rintro ⟨intact, written⟩
    refine ⟨?_, intact⟩
    unfold ofBytes
    rw [Token.ofBytes_of_written written reading.isChain_tokens, ofTokens_tokens intact]
  · rintro ⟨holds, intact⟩
    have tokens := tokens_of_ofTokens holds intact
    have sound := fault_notMem_tokens intact
    rw [← tokens] at sound
    have written := Token.written_of_ofBytes sound
    rw [tokens] at written
    exact ⟨intact, written⟩

/-- A text that is cut into the tokens of a reading is a document of it. -/
theorem document_of_tokens {reading : Reading} {bytes : List UInt8}
    (intact : reading.intact = true) (cut : Token.ofBytes bytes = reading.tokens) :
    reading.Document bytes := by
  refine document_iff.mpr ⟨?_, intact⟩
  rw [ofBytes, cut, ofTokens_tokens intact]

end Reading

end Disassembler.Json
