/-
SelfTyped.Proofs.TextNesting — what the measure of a text promises.

The measure is taken on the bytes of a text by a scanner that knows quotes,
backslashes and brackets only.  `measures_nesting` says what it is good for: on
well-formed text it is the nesting of the value, whatever the strings in it
hold, so the programs that are read under a limit have expressions of a bounded
depth, and what exceeds the limit is refused as too deep, be it JSON or not.

The parts are shown elsewhere: bytes against characters in `ByteNesting`,
characters against values in `JsonNesting`, values against expressions in
`ReadLevels`, and the reader of values against the grammar of JSON in
`JsonGrammar`.
-/
import SelfTyped.Proofs.ByteNesting
import SelfTyped.Proofs.JsonGrammar
import SelfTyped.Proofs.ReadLevels
import SelfTyped.Proofs.RoundTrip

namespace SelfTyped

namespace Source

namespace Program

open Json (nestingDepthOfBytes nestingLimit Grammar.Value)

theorem Contains.levelsWithin {p : Program} {e : Expr} {n : Nat} (contains : p.Contains e)
    (within : ∀ root ∈ p.roots, root.LevelsWithin n) : e.LevelsWithin n := by
  obtain ⟨c, hc, feature, hfeature, root, hroot, inside⟩ := contains
  have outermost : root ∈ p.roots := List.mem_flatMap.mpr
    ⟨c, hc, List.mem_flatMap.mpr ⟨feature, hfeature, Option.mem_toList.mpr hroot⟩⟩
  exact inside.levelsWithin (within root outermost)

/-- What the measure of a text, taken on its bytes, says about the text and about reading it. -/
structure NestingMeasured (text : String) (measure : Nat) : Prop where
  /-- A text of the grammar nests as its draft does, literals without a value included. -/
  draft : ∀ draft, Grammar.Value text.toList draft → measure = draft.depth
  /-- A text with a value nests as the value does. -/
  value : ∀ j, Grammar.Value text.toList (.ofJson j) → measure = j.depth
  /-- The value of a text is the one that is read from it. -/
  parsed : ∀ j, Json.parse? text.toList = some j ↔ Grammar.Value text.toList (.ofJson j)
  /-- What is read lies within the limit. -/
  within : ∀ maxDepth p, parse text maxDepth = .ok p →
    ∃ draft, Grammar.Value text.toList draft ∧ draft.depth ≤ nestingLimit maxDepth
  /-- Every expression that is read leaves six levels to what stands around it. -/
  levels : ∀ maxDepth p, parse text maxDepth = .ok p →
    ∀ e, p.Contains e → e.LevelsWithin (nestingLimit maxDepth - 6)
  /-- What exceeds the limit is refused, whatever else is wrong with it. -/
  refused : ∀ maxDepth, nestingLimit maxDepth < measure →
    parse text maxDepth = .error (.tooDeep (nestingLimit maxDepth))

/-- **The measure of a text is its nesting**, and bounds the expressions that are read from it. -/
theorem measures_nesting (text : String) :
    NestingMeasured text (nestingDepthOfBytes text.toUTF8.data.toList) := by
  rw [Json.nestingDepthOfBytes_toUTF8]
  have measured : ∀ draft, Grammar.Value text.toList draft →
      Json.nestingDepth text.toList = draft.depth :=
    fun draft derived => (Json.wellFormed_iff.mpr derived).nestingDepth
  constructor
  · exact measured
  · exact fun j derived => (measured _ derived).trans (Json.Draft.depth_ofJson j)
  · exact fun j => Json.parse?_eq_some_iff
  · intro maxDepth p parsed
    obtain ⟨within, draft, wellFormed, -⟩ := parse_eq_ok_iff.mp parsed
    exact ⟨draft, Json.wellFormed_iff.mp wellFormed, wellFormed.nestingDepth ▸ within⟩
  · intro maxDepth p parsed e contains
    obtain ⟨within, draft, wellFormed, reads⟩ := parse_eq_ok_iff.mp parsed
    rw [wellFormed.nestingDepth] at within
    refine contains.levelsWithin fun root mem => ?_
    exact (readProgram_bounded draft p reads root mem).mono (by omega)
  · intro maxDepth deeper
    exact if_pos deeper

/-- A program that holds brackets, a quote, a backslash and a letter of two bytes in a string. -/
def quoting : Program :=
  ⟨[⟨"Main", none, none, none, [.method ⟨"main", [], "String",
    ⟨none, .block [⟨none, .string "é\x7d[\x7b\"\\"⟩]⟩, none⟩]⟩]⟩

theorem exact_quoting : quoting.toJson.Exact := by
  simp [quoting, toJson, Class.toJson, Feature.toJson, Method.toJson, Expr.toJson, Form.payload,
    itemsToJson, record, lineToJson, Json.exact_object, Json.exact_array, Json.exact_string]

/-- Brackets in a string do not count, and all others do, in a text that goes wrong too. -/
theorem measures_nesting_quoting :
    nestingDepthOfBytes quoting.toText.toUTF8.data.toList = 9 ∧
      parse quoting.toText 1 = .ok quoting ∧
      (∀ e, quoting.Contains e → e.LevelsWithin 10) ∧
      parse (String.ofList (List.replicate 13 '[')) 0 = .error (.tooDeep 12) := by
  have wellFormed : Json.WellFormed quoting.toText.toList (.ofJson quoting.toJson) :=
    Json.wellFormed_toText exact_quoting
  have measured := measures_nesting quoting.toText
  have depth : nestingDepthOfBytes quoting.toText.toUTF8.data.toList = 9 :=
    measured.draft _ (Json.wellFormed_iff.mp wellFormed)
  have read : parse quoting.toText 1 = .ok quoting := by
    refine parse_eq_ok_iff.mpr ⟨?_, _, wellFormed, rfl⟩
    rw [wellFormed.nestingDepth]
    decide
  refine ⟨depth, read, measured.levels 1 quoting read, (measures_nesting _).refused 0 ?_⟩
  rw [Json.nestingDepthOfBytes_toUTF8, String.toList_ofList]
  decide

end Program

end Source

end SelfTyped
