import FieldRules.Command
import FieldRules.Json.Decoding
import FieldRules.Proofs.JsonValues
import FieldRules.Proofs.TrackedPositions

/-!
# Tokens and trees come back from their JSON

The JSON of a tree holds names and texts only, and the JSON of a token also holds the three counts
of its position.  So both are plain values, and a text that writes one of them denotes it in either
layout.  Decoding looks up the members by their names and gives the tree or the tokens again.
-/

namespace FieldRules

/-- The counts of the position are whole numbers of 64 bits. -/
structure Position.FitsWord (position : Position) : Prop where
  offset : position.offset < Numeral.wordLimit
  line : position.line < Numeral.wordLimit
  column : position.column < Numeral.wordLimit

namespace Decode

theorem kind_name {α : Type} {all : List α} {name : α → String}
    (injective : Function.Injective name) {found : α} (member : found ∈ all) :
    kind all name (.string (name found)) = .ok found := by
  have listed : (all.find? fun other => name other = name found) = some found := by
    cases result : all.find? fun other => name other = name found with
    | none =>
        have missing := List.find?_eq_none.mp result found member
        simp at missing
    | some other =>
        have same : name other = name found := by
          simpa using List.find?_some result
        rw [injective same]
  simp only [kind, kindOfName, listed]

theorem tokenKind_name (kind : TokenKind) : tokenKind (.string kind.name) = .ok kind := by
  have injective : Function.Injective TokenKind.name := by
    intro first second
    cases first <;> cases second <;> decide
  exact kind_name injective kind.mem_all

theorem nodeKind_name (kind : NodeKind) : nodeKind (.string kind.name) = .ok kind := by
  have injective : Function.Injective NodeKind.name := by
    intro first second
    cases first <;> cases second <;> decide
  exact kind_name injective kind.mem_all

theorem position_toJson (place : Position) : position place.toJson = .ok place := rfl

theorem token_toJson (piece : Token) : token piece.toJson = .ok piece := by
  have kindRead := tokenKind_name piece.kind
  have placeRead := position_toJson piece.position
  simp [token, Token.toJson, member, List.lookup_cons, kindRead, placeRead, string, required,
    Except.map, bind, Except.bind, pure, Except.pure]

theorem tokens_listToJson (pieces : List Token) : tokens (Token.listToJson pieces) = .ok pieces := by
  rw [tokens, Token.listToJson, list]
  induction pieces with
  | nil => rfl
  | cons piece pieces induction =>
      rw [List.map_cons, List.mapM_cons, token_toJson, induction]
      rfl

mutual

theorem node_toJson : ∀ tree : Node, node tree.toJson = .ok tree
  | ⟨kind, value, children⟩ => by
      have kindRead := nodeKind_name kind
      have childrenRead := nodes_listToJson children
      simp [node, Node.toJson, childrenMember, childList, member, List.lookup_cons, kindRead,
        childrenRead, string, required, Except.map, bind, Except.bind, pure, Except.pure]

theorem nodes_listToJson : ∀ trees : List Node, nodes (Node.listToJson trees) = .ok trees
  | [] => by simp only [Node.listToJson, nodes]
  | tree :: trees => by
      have firstRead := node_toJson tree
      have laterRead := nodes_listToJson trees
      simp only [Node.listToJson, nodes, firstRead, laterRead]
      rfl

end

end Decode

namespace Json

theorem Plain.object_three {first second third : String} {firstValue secondValue thirdValue : Json}
    (distinct : [first, second, third].Nodup) (firstPlain : Plain firstValue)
    (secondPlain : Plain secondValue) (thirdPlain : Plain thirdValue) :
    Plain (.object [(first, firstValue), (second, secondValue), (third, thirdValue)]) := by
  refine Plain.object distinct ?_
  intro member listed
  simp only [List.mem_cons, List.not_mem_nil, or_false] at listed
  rcases listed with rfl | rfl | rfl
  · exact firstPlain
  · exact secondPlain
  · exact thirdPlain

end Json

theorem Position.FitsWord.plain {position : Position} (fits : position.FitsWord) :
    position.toJson.Plain :=
  .object_three (by decide) (.natural fits.offset) (.natural fits.line) (.natural fits.column)

theorem Token.plain_listToJson {tokens : List Token}
    (fits : ∀ token ∈ tokens, token.position.FitsWord) : (listToJson tokens).Plain := by
  refine .array ?_
  intro item listed
  obtain ⟨token, member, rfl⟩ := List.mem_map.mp listed
  exact .object_three (by decide) (.string _) (.string _) (fits token member).plain

mutual

theorem Node.plain_toJson : ∀ tree : Node, tree.toJson.Plain
  | ⟨kind, value, children⟩ => by
      rw [Node.toJson]
      exact .object_three (by decide) (.string _) (.string _)
        (.array (Node.plain_of_mem_listToJson children))

theorem Node.plain_of_mem_listToJson :
    ∀ (trees : List Node), ∀ item ∈ Node.listToJson trees, item.Plain
  | [], item, listed => by
      rw [Node.listToJson] at listed
      cases listed
  | tree :: trees, item, listed => by
      rw [Node.listToJson] at listed
      rcases List.mem_cons.mp listed with rfl | later
      · exact Node.plain_toJson tree
      · exact Node.plain_of_mem_listToJson trees item later

end

/-- The JSON is what its compact and its pretty text denote, and decoding it gives the original. -/
structure DecodesBack {α : Type} (decode : Json → Except DecodeError α) (json : Json)
    (original : α) : Prop where
  compact : Json.ofText? json.compact = some json
  pretty : Json.ofText? json.pretty = some json
  decoded : decode json = .ok original

namespace DecodesBack

variable {α : Type} {decode : Json → Except DecodeError α}

theorem of_plain {json : Json} {original : α} (plain : json.Plain)
    (decoded : decode json = .ok original) : DecodesBack decode json original where
  compact := by
    have denoted := plain.ofText?_write Json.Layout.lawful_compact Json.allSpace_nil
    rwa [List.append_nil] at denoted
  pretty := by
    have denoted := plain.ofText?_write Json.Layout.lawful_pretty Json.allSpace_nil
    rwa [List.append_nil] at denoted
  decoded := decoded

/-- A value is determined by any text that denotes its JSON. -/
theorem unique {json json' : Json} {original original' : α}
    (back : DecodesBack decode json original) (back' : DecodesBack decode json' original')
    (same : json.compact = json'.compact ∨ json.pretty = json'.pretty) : original = original' := by
  have sameJson : json = json' := by
    rcases same with same | same
    · have denoted := back.compact
      rw [same, back'.compact] at denoted
      exact (Option.some.inj denoted).symm
    · have denoted := back.pretty
      rw [same, back'.pretty] at denoted
      exact (Option.some.inj denoted).symm
  have decoded := back.decoded
  rw [sameJson, back'.decoded] at decoded
  exact (Except.ok.inj decoded).symm

end DecodesBack

theorem Node.decodesBack (tree : Node) : DecodesBack Decode.node tree.toJson tree :=
  .of_plain tree.plain_toJson (Decode.node_toJson tree)

theorem Token.decodesBack {tokens : List Token}
    (fits : ∀ token ∈ tokens, token.position.FitsWord) :
    DecodesBack Decode.tokens (Token.listToJson tokens) tokens :=
  .of_plain (Token.plain_listToJson fits) (Decode.tokens_listToJson tokens)

/-- Parses the tokens that a text denotes. -/
def parseText? (text : String) : Option (Except RuleError Node) := do
  let json ← Json.ofText? text
  let tokens ← (Decode.tokens json).toOption
  return parseRules tokens

theorem parseText?_jsonText (settings : Settings) {tokens : List Token}
    (fits : ∀ token ∈ tokens, token.position.FitsWord) :
    parseText? (settings.jsonText (Token.listToJson tokens)) = some (parseRules tokens) := by
  have space : Json.AllSpace ['\n'] := by simp [Json.AllSpace, Json.isSpace]
  have plain := Token.plain_listToJson fits
  have denoted : Json.ofText? (settings.jsonText (Token.listToJson tokens)) =
      some (Token.listToJson tokens) := by
    have compact := plain.ofText?_write Json.Layout.lawful_compact space
    have pretty := plain.ofText?_write Json.Layout.lawful_pretty space
    rw [String.ofList_append] at compact pretty
    cases chosen : settings.pretty with
    | false =>
        simp only [Settings.jsonText, chosen]
        exact compact
    | true =>
        simp only [Settings.jsonText, chosen]
        exact pretty
  simp [parseText?, denoted, Decode.tokens_listToJson, Except.toOption]

theorem Position.Counted.fitsWord {source : List Char} {position : Position}
    (counted : Counted source position)
    (addressable : Text.byteLength source < Numeral.wordLimit) : position.FitsWord := by
  cases counted with
  | @intro earlier head after inside ends noNewline =>
      have behind := Text.byteLength_pos inside
      have lines := List.count_le_length (a := '\n') (l := earlier ++ head)
      have columns := Text.length_le_byteLength head
      have characters := Text.length_le_byteLength (earlier ++ head)
      simp only [Text.byteLength_append] at addressable characters
      constructor
      · simp only [Text.byteLength_append]
        omega
      · dsimp only
        omega
      · dsimp only
        omega

/-- Both texts of the JSON of a tree or of a token list denote that JSON, and decoding it gives the
tree or the tokens back, so the texts of different trees or token lists differ.  Parsing what the
token format writes gives the same as parsing the tokens. -/
theorem json_decodes_back :
    (∀ tree : Node, DecodesBack Decode.node tree.toJson tree) ∧
    (∀ tree tree' : Node, tree.toJson.compact = tree'.toJson.compact ∨
      tree.toJson.pretty = tree'.toJson.pretty → tree = tree') ∧
    (∀ tokens : List Token, (∀ token ∈ tokens, token.position.FitsWord) →
      DecodesBack Decode.tokens (Token.listToJson tokens) tokens ∧
      (∀ settings : Settings,
        parseText? (settings.jsonText (Token.listToJson tokens)) = some (parseRules tokens)) ∧
      ∀ tokens', (∀ token ∈ tokens', token.position.FitsWord) →
        (Token.listToJson tokens).compact = (Token.listToJson tokens').compact ∨
          (Token.listToJson tokens).pretty = (Token.listToJson tokens').pretty →
        tokens = tokens') ∧
    ∀ (settings : Settings) (source output : String), settings.format = .tokens →
      Text.byteLength source.toList < Numeral.wordLimit →
      settings.render source = .ok output → parseText? output = some (compile source) := by
  refine ⟨Node.decodesBack, ?trees, ?tokens, ?source⟩
  case trees =>
    intro tree tree' same
    exact tree.decodesBack.unique tree'.decodesBack same
  case tokens =>
    intro tokens fits
    refine ⟨Token.decodesBack fits, fun settings => parseText?_jsonText settings fits, ?_⟩
    intro tokens' fits' same
    exact (Token.decodesBack fits).unique (Token.decodesBack fits') same
  case source =>
    intro settings source output format addressable rendered
    cases readable : tokenize source with
    | error error =>
        simp [Settings.render, readable, bind, Except.bind] at rendered
    | ok tokens =>
        have fits : ∀ token ∈ tokens, token.position.FitsWord := by
          intro token member
          exact (marks_of_tokenize readable member).counted.fitsWord addressable
        have written : settings.jsonText (Token.listToJson tokens) = output := by
          simpa [Settings.render, readable, format, bind, Except.bind, pure, Except.pure] using
            rendered
        rw [← written, parseText?_jsonText settings fits, compile, readable]
        rfl

/-- Quotation marks, a backslash and a control character in a token survive both layouts, and so do
they in a rule. -/
theorem json_decodes_back_escaped :
    DecodesBack Decode.tokens (Token.listToJson [⟨.value, "\"\\\u0001\n", ⟨7, 2, 3⟩⟩])
        [⟨.value, "\"\\\u0001\n", ⟨7, 2, 3⟩⟩] ∧
      ∃ output, Settings.render ⟨none, none, .tokens, true, .warn⟩ "IN '\"\\\u0001'" = .ok output ∧
        parseText? output = some (compile "IN '\"\\\u0001'") := by
  have fits : ∀ token ∈ [(⟨.value, "\"\\\u0001\n", ⟨7, 2, 3⟩⟩ : Token)], token.position.FitsWord := by
    intro token member
    obtain rfl := List.mem_singleton.mp member
    exact ⟨by decide, by decide, by decide⟩
  have readable : tokenize "IN '\"\\\u0001'" =
      .ok [⟨.condition, "IN", ⟨0, 1, 0⟩⟩, ⟨.value, "'\"\\\u0001'", ⟨3, 1, 3⟩⟩] := by
    decide +kernel
  have rendered : Settings.render ⟨none, none, .tokens, true, .warn⟩ "IN '\"\\\u0001'" =
      .ok (Settings.jsonText ⟨none, none, .tokens, true, .warn⟩ (Token.listToJson
        [⟨.condition, "IN", ⟨0, 1, 0⟩⟩, ⟨.value, "'\"\\\u0001'", ⟨3, 1, 3⟩⟩])) := by
    rw [Settings.render, readable]
    rfl
  exact ⟨(json_decodes_back.2.2.1 _ fits).1, _, rendered,
    json_decodes_back.2.2.2 _ _ _ rfl (by decide) rendered⟩

end FieldRules
