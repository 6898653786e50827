import Plotting.Proofs.Expr.Completeness
import Plotting.Proofs.Expr.Soundness

/-!
# The parser is its grammar

Soundness and completeness meet at a whole token stream: a cursor with nothing
behind the phrase.  There a text parses exactly when its tokens are derived from
`sum` without nesting more operands than the limit, the result is the tree of
the derivation, and no second derivation spells the tokens.
-/

namespace Plotting
namespace Expr

open Grammar

/-- A token stream is a formula exactly when it is derived from `sum`. -/
theorem ofTokens_eq_ok_iff {tokens : List Located} {stop : Nat} {e : Expr} :
    ofTokens tokens stop = .ok e ↔
      ∃ d : Derivation .sum, d.yield = tokens.map Located.token ∧
        d.nesting ≤ maxNestingDepth ∧ d.tree = e := by
  constructor
  · intro h
    unfold ofTokens at h
    split at h
    · cases h
    · obtain ⟨⟨e', c⟩, hsum, hend⟩ := Parser.bind_eq_ok_iff.mp h
      dsimp only at hend
      split at hend
      · next hrest =>
        cases hend
        obtain ⟨d, htree, hd, hnesting⟩ := sound_sum _ _ _ hsum
        refine ⟨d, ?_, hnesting, htree⟩
        have htokens := hd.tokens
        rw [Cursor.tokens, Cursor.tokens, hrest, List.map_nil, List.append_nil] at htokens
        exact htokens.symm
      · cases hend
  · rintro ⟨d, hyield, hnesting, rfl⟩
    have htokens : (⟨tokens, stop, 0⟩ : Cursor).tokens = d.yield ++ [] := by
      rw [List.append_nil]
      exact hyield.symm
    have hroom : 0 + d.nesting ≤ maxNestingDepth := by omega
    obtain ⟨c, hread, hd⟩ := d.complete ⟨tokens, stop, 0⟩ [] htokens (looser_nil 1) hroom
    have hread' : Parser.sum Parser.operand ⟨tokens, stop, 0⟩ = .ok (d.tree, c) := hread
    have hrest : c.rest = [] := List.map_eq_nil_iff.mp (hd.tokens_eq htokens)
    have hne : tokens ≠ [] := by
      rintro rfl
      obtain ⟨t, w, hw, -⟩ := d.exists_yield_sum
      rw [hw] at hyield
      cases hyield
    simp only [ofTokens, if_neg hne, hread', Parser.ok_bind, if_pos hrest, Parser.pure_eq_ok]

/-- The parser accepts exactly what its grammar derives within the limit on
nested operands, and answers with the tree of the one derivation. -/
theorem parse_eq_ok_iff_exists_derivation {text : String} {tokens : List Located}
    (h : Token.scan text = .ok tokens) :
    (∀ e : Expr, parse text = .ok e ↔
      ∃ d : Derivation .sum, d.yield = tokens.map Located.token ∧
        d.nesting ≤ maxNestingDepth ∧ d.tree = e) ∧
    (∀ d d' : Derivation .sum, d.yield = tokens.map Located.token →
      d'.yield = tokens.map Located.token → d = d') := by
  constructor
  · intro e
    have hparse : parse text = ofTokens tokens (Text.byteLength text.toList) := by
      simp only [parse, h, Parser.ok_bind]
    rw [hparse]
    exact ofTokens_eq_ok_iff
  · intro d d' hd hd'
    exact Derivation.eq_of_yield_eq (hd.trans hd'.symm)

/-- The sign of a power stands outside it. -/
theorem parse_eq_ok_iff_exists_derivation_signed_power :
    Token.scan "-x^2" = .ok [⟨.minus, 0⟩, ⟨.ident "x", 1⟩, ⟨.caret, 2⟩, ⟨.number 2, 3⟩] ∧
      parse "-x^2" = .ok (.neg (.binary .pow .var (.number 2))) := by
  have hscan :
      Token.scan "-x^2" = .ok [⟨.minus, 0⟩, ⟨.ident "x", 1⟩, ⟨.caret, 2⟩, ⟨.number 2, 3⟩] := by
    rfl
  let two : Derivation .unary := .unsigned (.plain (.number 2))
  let power : Derivation .unary := .signed .minus (.unsigned (.raised .var two))
  refine ⟨hscan, ((parse_eq_ok_iff_exists_derivation hscan).1 _).mpr ?_⟩
  exact ⟨.sum (.term power .noFactor) .noAddend, rfl, by decide, rfl⟩

end Expr
end Plotting
