import Mathlib.Data.List.Chain
import PkgRecipe.Proofs.Shell.Reading

namespace PkgRecipe.Shell

/-! Words as parts of their text. The words of a text stand one separator apart and cover it, so that
nothing of the text is lost in them. -/

namespace Quoting

private theorem eq_space_of_separator_stepPlain {depth : Nat} {c : Char}
    (separates : (stepPlain depth c).2 = .separator) : c = ' ' := by
  unfold stepPlain at separates
  repeat' split at separates
  all_goals first | contradiction | exact (by assumption : c = ' ' ∧ depth = 0).1

theorem eq_space_of_separator {q : Quoting} {c : Char}
    (separates : (q.step c).2 = .separator) : c = ' ' := by
  obtain ⟨mode, depth⟩ := q
  cases mode with
  | normal => exact eq_space_of_separator_stepPlain separates
  | dollar =>
      by_cases quote : c = '\''
      · simp [step, quote] at separates
      · exact eq_space_of_separator_stepPlain (by simpa [step, quote] using separates)
  | singleQuote => by_cases quote : c = '\'' <;> simp [step, quote] at separates
  | doubleQuote =>
      by_cases quote : c = '"' <;> by_cases slash : c = '\\' <;>
        simp [step, quote, slash] at separates
  | ansiQuote =>
      by_cases quote : c = '\'' <;> by_cases slash : c = '\\' <;>
        simp [step, quote, slash] at separates
  | escape => contradiction
  | doubleQuoteEscape => contradiction
  | ansiEscape => contradiction

end Quoting

theorem separator_of_cutsBehind? {cuts left : Option Nat} {role : Role}
    (found : cutsBehind? cuts role = some left) : role = .separator := by
  cases role with
  | separator => rfl
  | literal => simp [cutsBehind?] at found
  | quote => simp [cutsBehind?] at found
  | escape => simp [cutsBehind?] at found

namespace Reading

theorem quoting_foldl_push (r : Reading) (text : List Char) :
    (text.foldl push r).quoting = r.quoting.scan text := by
  induction text generalizing r with
  | nil => rfl
  | cons c rest ih => rw [List.foldl_cons, ih, quoting_push, Quoting.scan_cons]

end Reading

def Piece.reading (p : Piece) : Reading :=
  p.raw.foldl Reading.push (Reading.start p.quoting)

theorem Piece.quoting_reading (p : Piece) : p.reading.quoting = p.quoting.scan p.raw :=
  Reading.quoting_foldl_push _ _

/-- A text, read from a quoting on, is cut into pieces at some of its separators. -/
inductive Cut : Quoting → List Char → List Piece → Prop where
  | last (q : Quoting) (raw : List Char) : Cut q raw [⟨q, raw⟩]
  | space {q : Quoting} {raw rest : List Char} {later : List Piece}
      (separates : ((q.scan raw).step ' ').2 = .separator)
      (cut : Cut ((q.scan raw).next ' ') rest later) :
      Cut q (raw ++ ' ' :: rest) (⟨q, raw⟩ :: later)

theorem Cut.cons {q : Quoting} {c : Char} {text : List Char} {ps : List Piece}
    (cut : Cut (q.next c) text ps) : Cut q (c :: text) (consPiece q c ps) := by
  cases cut with
  | last => exact .last q _
  | @space _ raw rest _ separates later => exact @Cut.space q (c :: raw) rest _ separates later

theorem cut_pieces (cuts : Option Nat) (q : Quoting) (text : List Char) :
    Cut q text (pieces cuts q text) := by
  induction text generalizing cuts q with
  | nil => exact .last q []
  | cons c rest ih =>
      rw [pieces_cons]
      cases found : cutsBehind? cuts (q.step c).2 with
      | none => exact (ih cuts (q.next c)).cons
      | some left =>
          have separates := separator_of_cutsBehind? found
          obtain rfl := Quoting.eq_space_of_separator separates
          exact @Cut.space q [] rest _ separates (ih left (q.next ' '))

namespace Cut

variable {q : Quoting} {text : List Char} {ps : List Piece}

theorem ne_nil (cut : Cut q text ps) : ps ≠ [] := by
  cases cut <;> simp

theorem intercalate_raw (cut : Cut q text ps) :
    List.intercalate [' '] (ps.map Piece.raw) = text := by
  induction cut with
  | last q raw => simp
  | @space q raw rest later _ cut ih =>
      obtain ⟨p, more, rfl⟩ := List.exists_cons_of_ne_nil cut.ne_nil
      rw [List.map_cons] at ih ⊢
      rw [List.map_cons, List.intercalate_cons_cons, ih]
      simp

private theorem quoting_getLast (cut : Cut q text ps) (p : Piece) (last : ps.getLast? = some p) :
    p.reading.quoting = q.scan text := by
  induction cut with
  | last q raw =>
      obtain rfl := Option.some.inj last
      exact Piece.quoting_reading _
  | @space q raw rest later _ cut ih =>
      rw [List.getLast?_cons_of_ne_nil cut.ne_nil] at last
      rw [ih last, Quoting.scan_append, Quoting.scan_cons]

/-! The tokens of the pieces of a text, in front of which `before` stands. -/

private theorem start_head? (cut : Cut q text ps) (index start : Nat) :
    ∀ t ∈ (tokensOf index start ps).head?, t.start = start := by
  intro t first
  cases cut <;> rw [← Option.some.inj first]

theorem stop_getLast? (cut : Cut q text ps) (index start : Nat) :
    ∀ t ∈ (tokensOf index start ps).getLast?, t.stop = start + text.length := by
  induction cut generalizing index start with
  | last q raw =>
      intro t last
      rw [← Option.some.inj last]
      rfl
  | @space q raw rest later _ cut ih =>
      intro t last
      obtain ⟨p, more, rfl⟩ := List.exists_cons_of_ne_nil cut.ne_nil
      rw [tokensOf, List.getLast?_cons_of_ne_nil (by simp [tokensOf])] at last
      simp only [ih _ _ t last, List.length_append, List.length_cons]
      omega

theorem raw_eq_slice (cut : Cut q text ps) (index : Nat) (before : List Char) :
    ∀ t ∈ tokensOf index before.length ps, t.start ≤ t.stop ∧
      t.raw = ((before ++ text).drop t.start).take (t.stop - t.start) := by
  induction cut generalizing index before with
  | last q raw =>
      intro t member
      obtain rfl := List.mem_singleton.1 member
      simp
  | @space q raw rest later _ cut ih =>
      intro t member
      rw [tokensOf, List.mem_cons] at member
      rcases member with rfl | member
      · simp
      · have whole : before ++ (raw ++ ' ' :: rest) = before ++ raw ++ [' '] ++ rest := by simp
        have place : before.length + raw.length + 1 = (before ++ raw ++ [' ']).length := by
          simp [Nat.add_assoc]
        rw [place] at member
        rw [whole]
        exact ih _ _ t member

theorem isChain_tokensOf (cut : Cut q text ps) (index : Nat) (before : List Char) :
    (tokensOf index before.length ps).IsChain fun t u =>
      u.start = t.stop + 1 ∧ (before ++ text)[t.stop]? = some ' ' := by
  induction cut generalizing index before with
  | last q raw => exact .singleton _
  | @space q raw rest later _ cut ih =>
      have whole : before ++ (raw ++ ' ' :: rest) = before ++ raw ++ [' '] ++ rest := by simp
      have place : before.length + raw.length + 1 = (before ++ raw ++ [' ']).length := by
        simp [Nat.add_assoc]
      have chain := ih (index + 1) (before ++ raw ++ [' '])
      rw [← whole, ← place] at chain
      obtain ⟨p, more, rfl⟩ := List.exists_cons_of_ne_nil cut.ne_nil
      refine .cons_cons ⟨rfl, ?_⟩ chain
      simp only [← List.length_append, ← List.append_assoc]
      simp

end Cut

theorem length_consPiece (q : Quoting) (c : Char) {ps : List Piece} (nonempty : ps ≠ []) :
    (consPiece q c ps).length = ps.length := by
  cases ps with
  | nil => contradiction
  | cons p rest => rfl

private theorem length_pieces_le (cuts : Nat) (q : Quoting) (text : List Char) :
    (pieces (some cuts) q text).length ≤ cuts + 1 := by
  induction text generalizing cuts q with
  | nil => simp [pieces]
  | cons c rest ih =>
      rw [pieces_cons]
      cases found : cutsBehind? (some cuts) (q.step c).2 with
      | none =>
          rw [length_consPiece q c (cut_pieces _ _ _).ne_nil]
          exact ih cuts (q.next c)
      | some left =>
          rw [separator_of_cutsBehind? found] at found
          cases cuts with
          | zero => simp at found
          | succ cuts =>
              obtain rfl := Option.some.inj found
              have shorter := ih cuts (q.next c)
              simp only [List.length_cons]
              omega

private theorem length_pieces_none (q : Quoting) (text : List Char) :
    (pieces none q text).length = 1 + (q.trace text).countP (·.2 = .separator) := by
  induction text generalizing q with
  | nil => rfl
  | cons c rest ih =>
      have later := ih (q.next c)
      rw [pieces_cons, Quoting.trace, List.countP_cons]
      by_cases separates : (q.step c).2 = .separator
      · rw [separates]
        simp only [cutsBehind?, List.length_cons, decide_true, if_true, later]
        omega
      · rw [cutsBehind?_of_ne separates]
        simp [length_consPiece q c (cut_pieces none _ _).ne_nil, later, separates]

/-- The quoting that is reached when the words of a text are read one after the other. -/
def quotingAfterWords (q : Quoting) (limit : Int) (text : List Char) : Quoting :=
  match (pieces (cutsFor limit) q text).getLast? with
  | some last => last.reading.quoting
  | none => q

theorem quotingAfterWords_eq (q : Quoting) (limit : Int) (text : List Char) :
    quotingAfterWords q limit text = q.scan text := by
  have cut := cut_pieces (cutsFor limit) q text
  rw [quotingAfterWords]
  cases last : (pieces (cutsFor limit) q text).getLast? with
  | none => exact absurd (List.getLast?_eq_none_iff.1 last) cut.ne_nil
  | some p => exact cut.quoting_getLast p last

theorem length_tokensFrom {text : List Char} (nonempty : text ≠ []) (q : Quoting) (limit : Int) :
    (tokensFrom q limit text).length = (pieces (cutsFor limit) q text).length := by
  rw [tokensFrom, if_neg nonempty, length_tokensOf]

theorem map_raw_tokensOf (index start : Nat) (ps : List Piece) :
    (tokensOf index start ps).map Token.raw = ps.map Piece.raw := by
  induction ps generalizing index start with
  | nil => rfl
  | cons p rest ih => simp [tokensOf, ih]

theorem intercalate_raw_tokensFrom (q : Quoting) (limit : Int) (text : List Char) :
    List.intercalate [' '] ((tokensFrom q limit text).map Token.raw) = text := by
  rw [tokensFrom]
  split
  · rename_i empty
    rw [empty]
    rfl
  · rw [map_raw_tokensOf, (cut_pieces _ _ _).intercalate_raw]

theorem tokensFrom_eq_nil_iff {q : Quoting} {limit : Int} {text : List Char} :
    tokensFrom q limit text = [] ↔ text = [] := by
  constructor
  · intro tokenless
    have joined := intercalate_raw_tokensFrom q limit text
    rw [tokenless] at joined
    exact joined.symm
  · intro empty
    rw [tokensFrom, if_pos empty]

theorem length_tokensFrom_le {limit : Int} (positive : 0 < limit) (q : Quoting)
    (text : List Char) : ((tokensFrom q limit text).length : Int) ≤ limit := by
  by_cases empty : text = []
  · rw [tokensFrom_eq_nil_iff.2 empty, List.length_nil]
    omega
  · have bound := length_pieces_le (limit.toNat - 1) q text
    rw [length_tokensFrom empty, cutsFor, if_pos positive]
    omega

theorem length_tokensFrom_unlimited {limit : Int} (unlimited : limit ≤ 0) (q : Quoting)
    {text : List Char} (nonempty : text ≠ []) :
    (tokensFrom q limit text).length = 1 + (q.trace text).countP (·.2 = .separator) := by
  rw [length_tokensFrom nonempty, cutsFor, if_neg (by omega), length_pieces_none]

theorem raw_prefix_of_tokensFrom {q : Quoting} {limit : Int} {text : List Char} {token : Token}
    {later : List Token} (read : tokensFrom q limit text = token :: later) :
    token.raw <+: text := by
  have joined := intercalate_raw_tokensFrom q limit text
  rw [read] at joined
  cases later with
  | nil =>
      obtain rfl : token.raw = text := by simpa using joined
      exact List.prefix_rfl
  | cons next later =>
      rw [← joined, List.map_cons, List.map_cons, List.intercalate_cons_cons, List.append_assoc]
      exact List.prefix_append _ _

/-- The tokens of a text lose nothing of it, whatever quoting it begins in and however many tokens
are wanted: joined by spaces they are the text, they are numbered, and they stand in it one space
apart from its start to its end. A limit bounds their number, without one each separator ends one,
and their reading ends in the quoting that the text ends in. -/
theorem tokensFrom_lossless (q : Quoting) (limit : Int) (text : List Char) :
    List.intercalate [' '] ((tokensFrom q limit text).map Token.raw) = text ∧
      (tokensFrom q limit text = [] ↔ text = []) ∧
      (tokensFrom q limit text).map Token.index =
        List.range (tokensFrom q limit text).length ∧
      (∀ t ∈ (tokensFrom q limit text).head?, t.start = 0) ∧
      (∀ t ∈ (tokensFrom q limit text).getLast?, t.stop = text.length) ∧
      (∀ t ∈ tokensFrom q limit text, t.start ≤ t.stop ∧
        t.raw = (text.drop t.start).take (t.stop - t.start)) ∧
      ((tokensFrom q limit text).IsChain fun t u =>
        u.start = t.stop + 1 ∧ text[t.stop]? = some ' ') ∧
      (0 < limit → ((tokensFrom q limit text).length : Int) ≤ limit) ∧
      (limit ≤ 0 → text ≠ [] →
        (tokensFrom q limit text).length = 1 + (q.trace text).countP (·.2 = .separator)) ∧
      quotingAfterWords q limit text = q.scan text := by
  have cut := cut_pieces (cutsFor limit) q text
  refine ⟨intercalate_raw_tokensFrom q limit text, tokensFrom_eq_nil_iff,
    map_index_tokensFrom q limit text, ?_, ?_, ?_, ?_,
    fun positive => length_tokensFrom_le positive q text,
    fun unlimited => length_tokensFrom_unlimited unlimited q, quotingAfterWords_eq q limit text⟩
  all_goals
    rw [tokensFrom]
    split
  · simp
  · exact cut.start_head? 0 0
  · simp
  · simpa using cut.stop_getLast? 0 0
  · simp
  · exact cut.raw_eq_slice 0 []
  · exact .nil
  · exact cut.isChain_tokensOf 0 []

end PkgRecipe.Shell
