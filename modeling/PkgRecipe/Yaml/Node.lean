import PkgRecipe.Yaml.Token

namespace PkgRecipe.Yaml

inductive Node where
  | scalar (text : List Char) (plain : Bool)
  | sequence (items : List Node)
  | mapping (entries : List (Node × Node))
deriving Repr

namespace Node

def empty : Node :=
  .scalar [] true

def endsBlockValue : List Token → Bool
  | .key :: _ | .value :: _ | .blockEnd :: _ => true
  | _ => false

def endsBlockItem : List Token → Bool
  | .blockEntry :: _ | .blockEnd :: _ => true
  | _ => false

def endsFlowValue (close : Token) : List Token → Bool
  | .flowEntry :: _ => true
  | t :: _ => t = close
  | [] => false

def afterComma? (first : Bool) : List Token → Option (List Token)
  | .flowEntry :: rest => if first then some (.flowEntry :: rest) else some rest
  | tokens => if first then some tokens else none

mutual
/-- Reads a node. Only where `block` holds may it be a block collection, and only where `indentless`
holds a block sequence at the column of the mapping around it. -/
def read? : Nat → Bool → Bool → List Token → Option (Node × List Token)
  | 0, _, _, _ => none
  | fuel + 1, block, indentless, tokens =>
      match tokens with
      | .scalar text plain :: rest => some (.scalar text plain, rest)
      | .blockEntry :: rest =>
          if indentless then do
            let (items, left) ← indentlessItems? fuel (.blockEntry :: rest)
            return (.sequence items, left)
          else none
      | .flowSequenceStart :: rest => do
          let (items, left) ← flowItems? fuel true rest
          return (.sequence items, left)
      | .flowMappingStart :: rest => do
          let (entries, left) ← flowEntries? fuel true rest
          return (.mapping entries, left)
      | .blockSequenceStart :: rest =>
          if block then do
            let (items, left) ← blockItems? fuel rest
            return (.sequence items, left)
          else none
      | .blockMappingStart :: rest =>
          if block then do
            let (entries, left) ← blockEntries? fuel rest
            return (.mapping entries, left)
          else none
      | _ => none

/-- Reads a node in a block mapping, or takes the empty one if its place has ended. -/
def blockValue? : Nat → List Token → Option (Node × List Token)
  | 0, _ => none
  | fuel + 1, tokens =>
      if endsBlockValue tokens then some (empty, tokens) else read? fuel true true tokens

def blockItems? : Nat → List Token → Option (List Node × List Token)
  | 0, _ => none
  | fuel + 1, .blockEntry :: rest => do
      let (item, left) ←
        if endsBlockItem rest then some (empty, rest) else read? fuel true false rest
      let (items, last) ← blockItems? fuel left
      return (item :: items, last)
  | _, .blockEnd :: rest => some ([], rest)
  | _, _ => none

def indentlessItems? : Nat → List Token → Option (List Node × List Token)
  | 0, _ => none
  | fuel + 1, .blockEntry :: rest => do
      let (item, left) ←
        if endsBlockItem rest || endsBlockValue rest then some (empty, rest)
        else read? fuel true false rest
      let (items, last) ← indentlessItems? fuel left
      return (item :: items, last)
  | _, tokens => some ([], tokens)

def blockEntries? : Nat → List Token → Option (List (Node × Node) × List Token)
  | 0, _ => none
  | fuel + 1, .key :: rest => do
      let (key, left) ← blockValue? fuel rest
      let (value, after) ←
        match left with
        | .value :: more => blockValue? fuel more
        | _ => some (empty, left)
      let (entries, last) ← blockEntries? fuel after
      return ((key, value) :: entries, last)
  | _, .blockEnd :: rest => some ([], rest)
  | _, _ => none

def flowValue? : Nat → Token → List Token → Option (Node × List Token)
  | 0, _, _ => none
  | fuel + 1, close, tokens =>
      if endsFlowValue close tokens then some (empty, tokens) else read? fuel false false tokens

def flowPair? : Nat → Token → List Token → Option ((Node × Node) × List Token)
  | 0, _, _ => none
  | fuel + 1, close, tokens => do
      let (key, left) ←
        match tokens with
        | .value :: _ => some (empty, tokens)
        | _ => flowValue? fuel close tokens
      match left with
      | .value :: more => do
          let (value, after) ← flowValue? fuel close more
          return ((key, value), after)
      | _ => return ((key, empty), left)

def flowItems? : Nat → Bool → List Token → Option (List Node × List Token)
  | 0, _, _ => none
  | _, _, .flowSequenceEnd :: rest => some ([], rest)
  | fuel + 1, first, tokens => do
      match ← afterComma? first tokens with
      | .flowSequenceEnd :: rest => return ([], rest)
      | .key :: rest => do
          let (pair, left) ← flowPair? fuel .flowSequenceEnd rest
          let (items, last) ← flowItems? fuel false left
          return (.mapping [pair] :: items, last)
      | start => do
          let (item, left) ← read? fuel false false start
          let (items, last) ← flowItems? fuel false left
          return (item :: items, last)

def flowEntries? : Nat → Bool → List Token → Option (List (Node × Node) × List Token)
  | 0, _, _ => none
  | _, _, .flowMappingEnd :: rest => some ([], rest)
  | fuel + 1, first, tokens => do
      match ← afterComma? first tokens with
      | .flowMappingEnd :: rest => return ([], rest)
      | .key :: rest => do
          let (pair, left) ← flowPair? fuel .flowMappingEnd rest
          let (entries, last) ← flowEntries? fuel false left
          return (pair :: entries, last)
      | start => do
          let (key, left) ← read? fuel false false start
          let (entries, last) ← flowEntries? fuel false left
          return ((key, empty) :: entries, last)
end

def skipDocumentEnds (tokens : List Token) : List Token :=
  tokens.dropWhile (· = .documentEnd)

def ofTokens? (tokens : List Token) : Option Node := do
  let fuel := 4 * tokens.length + 4
  let (node, left) ←
    match tokens with
    | [] => some (empty, [])
    | .documentStart :: [] => some (empty, [])
    | .documentStart :: rest =>
        match rest with
        | .documentStart :: _ | .documentEnd :: _ => some (empty, rest)
        | _ => read? fuel true false rest
    | _ => read? fuel true false tokens
  guard (skipDocumentEnds left = [])
  return node

end Node

end PkgRecipe.Yaml
