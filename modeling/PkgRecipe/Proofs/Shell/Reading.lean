import PkgRecipe.Shell.Token

namespace PkgRecipe.Shell

/-! Words read in one pass. The values of a text's words, which are defined piece by piece, are
those that a single reading from left to right collects. -/

namespace Quoting

@[simp] theorem inAnsiQuote_stepPlain (depth : Nat) (c : Char) :
    (stepPlain depth c).1.mode.inAnsiQuote = false := by
  unfold stepPlain
  repeat' split
  all_goals rfl

private theorem inAnsiQuote_of_next {q : Quoting} {c : Char}
    (entered : (q.next c).mode.inAnsiQuote = true) :
    q.mode.inAnsiQuote = true ∨ q.mode = .dollar ∧ c = '\'' := by
  obtain ⟨mode, depth⟩ := q
  cases mode with
  | normal => simp [next, step] at entered
  | dollar =>
      by_cases quote : c = '\''
      · exact Or.inr ⟨rfl, quote⟩
      · simp [next, step, quote] at entered
  | singleQuote =>
      by_cases quote : c = '\'' <;> simp [next, step, quote, Mode.inAnsiQuote] at entered
  | doubleQuote =>
      by_cases quote : c = '"' <;> by_cases slash : c = '\\' <;>
        simp [next, step, quote, slash, Mode.inAnsiQuote] at entered
  | ansiQuote => exact Or.inl rfl
  | escape => simp [next, step, Mode.inAnsiQuote] at entered
  | doubleQuoteEscape => simp [next, step, Mode.inAnsiQuote] at entered
  | ansiEscape => exact Or.inl rfl

end Quoting

/-- How many separators still cut behind a character of the given role, if that character cuts. -/
def cutsBehind? : Option Nat → Role → Option (Option Nat)
  | none, .separator => some none
  | some (n + 1), .separator => some (some n)
  | _, _ => none

@[simp] theorem cutsBehind?_some_zero (role : Role) : cutsBehind? (some 0) role = none := by
  cases role <;> rfl

theorem cutsBehind?_of_ne {role : Role} (different : role ≠ .separator) (cuts : Option Nat) :
    cutsBehind? cuts role = none := by
  cases role <;> first | contradiction | simp [cutsBehind?]

theorem pieces_cons (cuts : Option Nat) (q : Quoting) (c : Char) (rest : List Char) :
    pieces cuts q (c :: rest) =
      match cutsBehind? cuts (q.step c).2 with
      | some left => ⟨q, []⟩ :: pieces left (q.next c) rest
      | none => consPiece q c (pieces cuts (q.next c) rest) := by
  rcases stepped : q.step c with ⟨after, role⟩
  simp only [pieces, Quoting.next, stepped]
  cases role with
  | literal => simp [cutsBehind?]
  | quote => simp [cutsBehind?]
  | escape => simp [cutsBehind?]
  | separator =>
      cases cuts with
      | none => rfl
      | some n => cases n <;> rfl

namespace Reading

@[simp] theorem quoting_start (q : Quoting) : (start q).quoting = q :=
  rfl

theorem push_eq (r : Reading) (c : Char) :
    r.push c =
      if r.quoting.mode = .dollar ∧ (r.quoting.next c).mode.inAnsiQuote then
        ⟨r.quoting.next c, r.value.tail, some []⟩
      else
        match r.body with
        | some body =>
            if (r.quoting.next c).mode.inAnsiQuote then
              ⟨r.quoting.next c, r.value, some (c :: body)⟩
            else ⟨r.quoting.next c, (AnsiText.decode body.reverse).reverse ++ r.value, none⟩
        | none =>
            ⟨r.quoting.next c,
              (unquotedChar r.quoting.mode (r.quoting.step c).2 c).reverse ++ r.value, none⟩ :=
  rfl

theorem push_outside {r : Reading} {c : Char} (outside : r.body = none)
    (stays : (r.quoting.next c).mode.inAnsiQuote = false) :
    r.push c =
      ⟨r.quoting.next c,
        (unquotedChar r.quoting.mode (r.quoting.step c).2 c).reverse ++ r.value, none⟩ := by
  simp [push_eq, outside, stays]

@[simp] theorem quoting_push (r : Reading) (c : Char) :
    (r.push c).quoting = r.quoting.next c := by
  rw [push_eq]
  split
  · rfl
  · split
    · split <;> rfl
    · rfl

/-- A body is collected exactly while an ANSI-C quote is open. -/
def Coherent (r : Reading) : Prop :=
  r.body.isSome = r.quoting.mode.inAnsiQuote

theorem coherent_start (q : Quoting) : (start q).Coherent := by
  cases inside : q.mode.inAnsiQuote <;> simp [Coherent, start, inside]

theorem Coherent.body_eq_none {r : Reading} (coherent : r.Coherent)
    (outside : r.quoting.mode.inAnsiQuote = false) : r.body = none := by
  rw [Coherent, outside] at coherent
  exact Option.isSome_eq_false_iff.1 coherent |> Option.isNone_iff_eq_none.1

theorem Coherent.push {r : Reading} (coherent : r.Coherent) (c : Char) :
    (r.push c).Coherent := by
  rw [Coherent, quoting_push, push_eq]
  split
  · rename_i opened
    exact opened.2.symm
  · rename_i unopened
    cases body : r.body with
    | some text => cases inside : (r.quoting.next c).mode.inAnsiQuote <;> simp
    | none =>
        have outside : r.quoting.mode.inAnsiQuote = false := by
          rw [← coherent, body]
          rfl
        cases inside : (r.quoting.next c).mode.inAnsiQuote with
        | false => rfl
        | true =>
            rcases Quoting.inAnsiQuote_of_next inside with within | ⟨dollar, -⟩
            · rw [outside] at within
              contradiction
            · exact absurd ⟨dollar, inside⟩ unopened

/-- The values of the words of a text that is read on after `r`. With `some n` only the first `n`
separators cut. -/
def values (cuts : Option Nat) (r : Reading) : List Char → List (List Char)
  | [] => [r.finish]
  | c :: rest =>
      match cutsBehind? cuts (r.quoting.step c).2 with
      | some left => r.finish :: values left (start (r.quoting.next c)) rest
      | none => values cuts (r.push c) rest

theorem values_cons_of_ne {r : Reading} {c : Char} (different : (r.quoting.step c).2 ≠ .separator)
    (cuts : Option Nat) (rest : List Char) :
    values cuts r (c :: rest) = values cuts (r.push c) rest := by
  rw [values, cutsBehind?_of_ne different]

theorem values_eq (cuts : Option Nat) (r : Reading) (text : List Char) :
    ∃ raw later, pieces cuts r.quoting text = ⟨r.quoting, raw⟩ :: later ∧
      values cuts r text = (raw.foldl push r).finish :: later.map Piece.value := by
  induction text generalizing cuts r with
  | nil => exact ⟨[], [], rfl, rfl⟩
  | cons c rest ih =>
      rw [pieces_cons, values]
      cases cutsBehind? cuts (r.quoting.step c).2 with
      | some left =>
          obtain ⟨raw, later, cut, read⟩ := ih left (start (r.quoting.next c))
          refine ⟨[], pieces left (r.quoting.next c) rest, rfl, ?_⟩
          rw [quoting_start] at cut
          simp only [read, cut]
          rfl
      | none =>
          obtain ⟨raw, later, cut, read⟩ := ih cuts (r.push c)
          refine ⟨c :: raw, later, ?_, read⟩
          rw [quoting_push] at cut
          simp only [cut, consPiece]

theorem map_value_pieces (cuts : Option Nat) (q : Quoting) (text : List Char) :
    (pieces cuts q text).map Piece.value = values cuts (start q) text := by
  obtain ⟨raw, later, cut, read⟩ := values_eq cuts (start q) text
  rw [quoting_start] at cut
  rw [read, cut]
  rfl

end Reading

theorem map_value_tokensOf (index start : Nat) (ps : List Piece) :
    (tokensOf index start ps).map Token.value = ps.map Piece.value := by
  induction ps generalizing index start with
  | nil => rfl
  | cons p rest ih => simp [tokensOf, ih]

theorem map_index_tokensOf (index start : Nat) (ps : List Piece) :
    (tokensOf index start ps).map Token.index = List.range' index ps.length := by
  induction ps generalizing index start with
  | nil => rfl
  | cons p rest ih => simp [tokensOf, ih, List.range'_succ]

theorem length_tokensOf (index start : Nat) (ps : List Piece) :
    (tokensOf index start ps).length = ps.length := by
  simpa using congrArg List.length (map_value_tokensOf index start ps)

theorem map_index_tokensFrom (q : Quoting) (limit : Int) (text : List Char) :
    (tokensFrom q limit text).map Token.index =
      List.range (tokensFrom q limit text).length := by
  rw [tokensFrom]
  split
  · rfl
  · rw [map_index_tokensOf, length_tokensOf, List.range_eq_range']

theorem map_index_tokenize (text : List Char) :
    (tokenize text).map Token.index = List.range (tokenize text).length :=
  map_index_tokensFrom .initial (-1) text

theorem pieces_some_zero (q : Quoting) (text : List Char) : pieces (some 0) q text = [⟨q, text⟩] := by
  induction text generalizing q with
  | nil => rfl
  | cons c rest ih => rw [pieces_cons, cutsBehind?_some_zero, ih, consPiece]

theorem unquote_eq_headD (text : List Char) :
    unquote text = ((tokensFrom .initial 1 text).map Token.value).headD [] := by
  rw [unquote]
  cases tokensFrom .initial 1 text <;> rfl

theorem unquote_eq (text : List Char) : unquote text = valueFrom .initial text := by
  cases text with
  | nil => rfl
  | cons c rest =>
      have limited : cutsFor 1 = some 0 := rfl
      simp [unquote, tokensFrom, limited, pieces_some_zero, tokensOf, Piece.value]

end PkgRecipe.Shell
