import PkgRecipe.Proofs.Shell.Words

namespace PkgRecipe.Shell

/-! Text that is read in two parts. The second part is read from the quoting in which the first ends,
and the word at the cut is the last word of the first part with the first word of the second. -/

theorem Quoting.eq_dollar_of_next {q : Quoting} {c : Char} (dollar : (q.next c).mode = .dollar) :
    (q.mode = .normal ∨ q.mode = .dollar) ∧ c = '$' := by
  have plain {depth : Nat} (dollar : (stepPlain depth c).1.mode = .dollar) : c = '$' := by
    unfold stepPlain at dollar
    repeat' split at dollar
    all_goals first | contradiction | assumption
  obtain ⟨mode, depth⟩ := q
  cases mode with
  | normal => exact ⟨.inl rfl, plain dollar⟩
  | dollar =>
      by_cases quote : c = '\''
      · simp [next, step, quote] at dollar
      · exact ⟨.inr rfl, plain (by simpa [next, step, quote] using dollar)⟩
  | singleQuote => by_cases quote : c = '\'' <;> simp [next, step, quote] at dollar
  | doubleQuote =>
      by_cases quote : c = '"' <;> by_cases slash : c = '\\' <;>
        simp [next, step, quote, slash] at dollar
  | ansiQuote =>
      by_cases quote : c = '\'' <;> by_cases slash : c = '\\' <;>
        simp [next, step, quote, slash] at dollar
  | escape => contradiction
  | doubleQuoteEscape => contradiction
  | ansiEscape => contradiction

namespace Reading

def behind (front : List Char) (r : Reading) : Reading :=
  { r with value := r.value ++ front.reverse }

private theorem finish_behind (front : List Char) (r : Reading) :
    (r.behind front).finish = front ++ r.finish := by
  obtain ⟨q, value, body⟩ := r
  cases body with
  | none => simp [behind, finish]
  | some body => simp [behind, finish]

/-- The dollar sign that may be taken back is of the value that is being read. -/
def HoldsDollar (r : Reading) : Prop :=
  r.quoting.mode = .dollar → r.value ≠ []

theorem Coherent.holdsDollar_push {r : Reading} (coherent : r.Coherent) (c : Char) :
    (r.push c).HoldsDollar := by
  intro dollar
  rw [quoting_push] at dollar
  obtain ⟨plain, rfl⟩ := Quoting.eq_dollar_of_next dollar
  have outside : r.body = none := coherent.body_eq_none (by rcases plain with h | h <;> rw [h] <;> rfl)
  rw [push_outside outside (by rw [dollar]; rfl)]
  rcases plain with mode | mode
  · simp [Quoting.step, Quoting.stepPlain, unquotedChar, mode]
  · simp [Quoting.step, Quoting.stepPlain, unquotedChar, mode]

private theorem push_behind (front : List Char) {r : Reading} (holds : r.HoldsDollar) (c : Char) :
    (r.behind front).push c = (r.push c).behind front := by
  obtain ⟨q, value, body⟩ := r
  rw [behind, push_eq, push_eq]
  dsimp only
  by_cases opened : q.mode = .dollar ∧ (q.next c).mode.inAnsiQuote = true
  · rw [if_pos opened, if_pos opened, List.tail_append_of_ne_nil (holds opened.1)]
    rfl
  · rw [if_neg opened, if_neg opened]
    cases body with
    | none => simp [behind]
    | some body => cases inside : (q.next c).mode.inAnsiQuote <;> simp [behind]

private theorem foldl_push_behind (front : List Char) {r : Reading} (coherent : r.Coherent)
    (holds : r.HoldsDollar) (text : List Char) :
    text.foldl push (r.behind front) = (text.foldl push r).behind front := by
  induction text generalizing r with
  | nil => rfl
  | cons c text ih =>
      rw [List.foldl_cons, List.foldl_cons, push_behind front holds c,
        ih (coherent.push c) (coherent.holdsDollar_push c)]

theorem Coherent.foldl_push {r : Reading} (coherent : r.Coherent) (text : List Char) :
    (text.foldl Reading.push r).Coherent := by
  induction text generalizing r with
  | nil => exact coherent
  | cons c text ih => exact ih (coherent.push c)

end Reading

theorem exists_reading (q : Quoting) (first : List Char) :
    ∃ r : Reading, r.Coherent ∧ r.quoting = q.scan first ∧ r.finish = valueFrom q first ∧
      ∀ second, valueFrom q (first ++ second) = (second.foldl Reading.push r).finish := by
  refine ⟨first.foldl Reading.push (.start q), (Reading.coherent_start q).foldl_push first,
    Reading.quoting_foldl_push _ _, rfl, fun second => ?_⟩
  rw [valueFrom, List.foldl_append]

/-- Text may be cut where nothing of the value that is being read is still to be changed. -/
theorem valueFrom_append {q : Quoting} {first : List Char} (second : List Char)
    (noDollar : (q.scan first).mode ≠ .dollar)
    (outside : (q.scan first).mode.inAnsiQuote = false) :
    valueFrom q (first ++ second) = valueFrom q first ++ valueFrom (q.scan first) second := by
  obtain ⟨⟨q', value, body⟩, coherent, rfl, whole, appended⟩ := exists_reading q first
  obtain rfl : body = none := coherent.body_eq_none outside
  -- outside of a quote the reading is a new one, behind what was read so far
  have anew : (⟨q.scan first, value, none⟩ : Reading) =
      (Reading.start (q.scan first)).behind value.reverse := by
    simp [Reading.behind, Reading.start, outside]
  have holds : (Reading.start (q.scan first)).HoldsDollar :=
    fun dollar => absurd dollar noDollar
  rw [appended, ← whole, anew, Reading.foldl_push_behind _ (Reading.coherent_start _) holds,
    Reading.finish_behind, ← anew]
  rfl

theorem exists_pieces_eq_cons (cuts : Option Nat) (q : Quoting) (text : List Char) :
    ∃ raw later, pieces cuts q text = ⟨q, raw⟩ :: later := by
  obtain ⟨raw, later, cut, -⟩ := Reading.values_eq cuts (.start q) text
  exact ⟨raw, later, cut⟩

/-- The pieces of a text in two parts. The first part ends in the quoting in which the first piece
of the second begins. -/
theorem pieces_append (q : Quoting) (first second : List Char) :
    ∃ front last raw back,
      pieces none q first = front ++ [last] ∧ last.quoting.scan last.raw = q.scan first ∧
        pieces none (q.scan first) second = ⟨q.scan first, raw⟩ :: back ∧
          pieces none q (first ++ second) = front ++ ⟨last.quoting, last.raw ++ raw⟩ :: back := by
  induction first generalizing q with
  | nil =>
      obtain ⟨raw, back, cut⟩ := exists_pieces_eq_cons none q second
      exact ⟨[], ⟨q, []⟩, raw, back, rfl, rfl, cut, cut⟩
  | cons c first ih =>
      obtain ⟨front, last, raw, back, cut, ends, later, whole⟩ := ih (q.next c)
      rw [List.cons_append, pieces_cons, pieces_cons]
      by_cases separates : (q.step c).2 = .separator
      · simp only [separates, cutsBehind?, cut, whole]
        exact ⟨⟨q, []⟩ :: front, last, raw, back, rfl, ends, later, rfl⟩
      · simp only [cutsBehind?_of_ne separates, cut, whole]
        cases front with
        | nil =>
            -- the first piece of the first part is also its last, so the character joins both
            obtain ⟨raw', later', here⟩ := exists_pieces_eq_cons none (q.next c) first
            rw [here] at cut
            obtain ⟨rfl, -⟩ := List.cons.inj cut
            exact ⟨[], ⟨q, c :: raw'⟩, raw, back, rfl, ends, later, rfl⟩
        | cons p front =>
            exact ⟨⟨q, c :: p.raw⟩ :: front, last, raw, back, rfl, ends, later, rfl⟩

/-- The characters of pieces, with a separator behind each of them. -/
def width : List Piece → Nat
  | [] => 0
  | p :: rest => p.raw.length + 1 + width rest

theorem tokensOf_append (index start : Nat) (first second : List Piece) :
    tokensOf index start (first ++ second) =
      tokensOf index start first ++
        tokensOf (index + first.length) (start + width first) second := by
  induction first generalizing index start with
  | nil => rfl
  | cons p first ih =>
      have index' : index + 1 + first.length = index + (p :: first).length := by
        rw [List.length_cons]
        omega
      have start' : start + p.raw.length + 1 + width first = start + width (p :: first) := by
        rw [width, ← Nat.add_assoc, ← Nat.add_assoc]
      rw [List.cons_append, tokensOf, tokensOf, ih, List.cons_append, index', start']

theorem tokensFrom_unlimited {text : List Char} (nonempty : text ≠ []) (q : Quoting) :
    tokensFrom q (-1) text = tokensOf 0 0 (pieces none q text) := by
  rw [tokensFrom, if_neg nonempty]
  rfl

/-- The words of a text in two parts are those of the first part and those of the second, which is
read on from the quoting that the first part ends in; the words at the cut are one. So are their
values, unless the cut is in an ANSI-C quote or right behind a dollar sign. -/
theorem tokensFrom_append {first second : List Char} (nonempty : first ≠ [])
    (nonempty' : second ≠ []) (q : Quoting) :
    ∃ front last next back,
      tokensFrom q (-1) first = front ++ [last] ∧
        tokensFrom (q.scan first) (-1) second = next :: back ∧
        (tokensFrom q (-1) (first ++ second)).map Token.raw =
          front.map Token.raw ++ (last.raw ++ next.raw) :: back.map Token.raw ∧
        quotingAfterWords q (-1) (first ++ second) =
          quotingAfterWords (q.scan first) (-1) second ∧
        ((q.scan first).mode ∉ [.dollar, .ansiQuote, .ansiEscape] →
          (tokensFrom q (-1) (first ++ second)).map Token.value =
            front.map Token.value ++ (last.value ++ next.value) :: back.map Token.value) := by
  obtain ⟨front, last, raw, back, cut, ends, later, whole⟩ := pieces_append q first second
  have both : first ++ second ≠ [] := by simp [nonempty]
  rw [tokensFrom_unlimited nonempty, tokensFrom_unlimited nonempty', tokensFrom_unlimited both, cut,
    later, tokensOf_append, map_raw_tokensOf, map_value_tokensOf, whole]
  refine ⟨_, _, _, _, rfl, rfl, ?_, ?_, fun seam => ?_⟩
  · simp only [map_raw_tokensOf, List.map_append, List.map_cons]
  · rw [quotingAfterWords_eq, quotingAfterWords_eq, Quoting.scan_append]
  · simp only [map_value_tokensOf, List.map_append, List.map_cons]
    have joined : valueFrom last.quoting (last.raw ++ raw) =
        valueFrom last.quoting last.raw ++ valueFrom (q.scan first) raw := by
      rw [← ends] at seam ⊢
      simp only [List.mem_cons, List.not_mem_nil, or_false, not_or] at seam
      obtain ⟨noDollar, noQuote, noEscape⟩ := seam
      refine valueFrom_append raw noDollar ?_
      cases mode : (last.quoting.scan last.raw).mode with
      | ansiQuote => exact absurd mode noQuote
      | ansiEscape => exact absurd mode noEscape
      | _ => rfl
    exact congrArg _ (congrArg (· :: _) joined)

theorem tokensFrom_append_escaped :
    let q : Quoting := ⟨.doubleQuote, 0⟩
    let first := "x y\" z\\".toList
    let second := " w $'\\t'".toList
    let words (q : Quoting) (text : List Char) := (tokensFrom q (-1) text).map Token.raw
    let values (q : Quoting) (text : List Char) := (tokensFrom q (-1) text).map Token.value
    first ≠ [] ∧ second ≠ [] ∧ (q.scan first).mode ∉ [.dollar, .ansiQuote, .ansiEscape] ∧
      words q first = ["x y\"".toList, "z\\".toList] ∧
      words (q.scan first) second = [" w".toList, "$'\\t'".toList] ∧
      words q (first ++ second) = ["x y\"".toList, "z\\ w".toList, "$'\\t'".toList] ∧
      values q first = ["x y".toList, "z".toList] ∧
      values (q.scan first) second = [" w".toList, "\t".toList] ∧
      values q (first ++ second) = ["x y".toList, "z w".toList, "\t".toList] := by
  intro q first second words values
  have nonempty : first ≠ [] := List.cons_ne_nil _ _
  have nonempty' : second ≠ [] := List.cons_ne_nil _ _
  have seam : (q.scan first).mode ∉ [.dollar, .ansiQuote, .ansiEscape] := by decide
  have words₁ : words q first = ["x y\"".toList, "z\\".toList] := by decide +kernel
  have words₂ : words (q.scan first) second = [" w".toList, "$'\\t'".toList] := by decide +kernel
  have values₁ : values q first = ["x y".toList, "z".toList] := by decide +kernel
  have values₂ : values (q.scan first) second = [" w".toList, "\t".toList] := by decide +kernel
  obtain ⟨front, last, next, back, read, read', raw, -, value⟩ :=
    tokensFrom_append nonempty nonempty' q
  have glued {f : Token → List Char} {w w' v v' : List Char}
      (left : (tokensFrom q (-1) first).map f = [w, w'])
      (right : (tokensFrom (q.scan first) (-1) second).map f = [v, v']) :
      front.map f ++ (f last ++ f next) :: back.map f = [w, w' ++ v, v'] := by
    rw [read, List.map_append] at left
    rw [read', List.map_cons] at right
    have left : front.map f ++ [f last] = [w] ++ [w'] := left
    obtain ⟨left, last'⟩ := List.append_inj' left rfl
    obtain ⟨next', right⟩ := List.cons.inj right
    rw [left, right, next', List.singleton_inj.1 last']
    rfl
  exact ⟨nonempty, nonempty', seam, words₁, words₂, raw.trans (glued words₁ words₂), values₁, values₂,
    (value seam).trans (glued values₁ values₂)⟩

end PkgRecipe.Shell
