import RelayWorkbench.Markup.Yaml.Scalar

/-! Nodes of YAML. A collection in block style is held together by its column, one in flow style
by its brackets. Anchors, aliases, tags, block scalars and keys that are collections are not
read. -/

namespace RelayWorkbench.Markup.Yaml.Reading

/-- Go on at the next token. -/
def skipGap (flow : Bool) : Reading Unit := modify fun place => place.next flow

/-- Pass over characters of the current line. -/
def pass (count : Nat) : Reading Unit := modify fun place => place.after count

def setFresh (fresh : Bool) : Reading Unit := modify fun place => { place with fresh }

/-- A scalar, quoted or plain; a plain one goes on in lines indented by at least `least`. -/
def scalar (flow : Bool) (least : Nat) : Reading Datum := do
  let place ← get
  match place.rest with
  | [] => failure
  | char :: rest =>
    if char = '"' || char = '\x27' then
      let (value, after) ← quotedFrom char (rest.length + 1) (.blanks []) (place.after 1)
      set { after with fresh := false }
      return .text value
    else if startsPlain flow place.rest then
      let (value, after) ←
        plainFrom flow least place.line place.column false (.blanks []) place.rest
      set after
      plainDatum? value
    else failure

/-! Flow style -/

/-- Whether the value of a key that starts on `line` stands here. -/
def atFlowValue (line : Nat) : Reading Bool := do
  let place ← get
  return place.line == line && place.rest.head? == some ':'

/-- The value after a colon, or null where none is written. -/
def flowValue (node : Reading Datum) : Reading Datum := do
  pass 1
  skipGap true
  match (← get).rest with
  | [] => failure
  | char :: _ => if char = ',' || char = ']' || char = '}' then return .null else node

mutual

/-- A node inside a flow collection; `fuel` bounds the work. -/
def flowNode : Nat → Reading Datum
  | 0 => failure
  | fuel + 1 => do
    skipGap true
    match (← get).rest with
    | '[' :: _ =>
      pass 1
      return .list (← flowItems fuel)
    | '{' :: _ =>
      pass 1
      return .map (← flowEntries fuel)
    | _ => scalar true 0

/-- The items of a list up to its closing bracket. A key with its value is a map of one entry. -/
def flowItems : Nat → Reading (List Datum)
  | 0 => failure
  | fuel + 1 => do
    skipGap true
    match (← get).rest with
    | ']' :: _ =>
      pass 1
      return []
    | _ =>
      let line := (← get).line
      let node ← flowNode fuel
      skipGap true
      let item ← do
        if ← atFlowValue line then
          let value ← flowValue (flowNode fuel)
          pure (Datum.map [(node, value)])
        else pure node
      skipGap true
      match (← get).rest with
      | ']' :: _ =>
        pass 1
        return [item]
      | ',' :: _ =>
        pass 1
        return item :: (← flowItems fuel)
      | _ => failure

/-- The entries of a map up to its closing brace. A key without value has the value null. -/
def flowEntries : Nat → Reading (List (Datum × Datum))
  | 0 => failure
  | fuel + 1 => do
    skipGap true
    match (← get).rest with
    | '}' :: _ =>
      pass 1
      return []
    | _ =>
      let line := (← get).line
      let key ← flowNode fuel
      skipGap true
      let value ← do
        if ← atFlowValue line then flowValue (flowNode fuel) else pure .null
      skipGap true
      match (← get).rest with
      | '}' :: _ =>
        pass 1
        return [(key, value)]
      | ',' :: _ =>
        pass 1
        return (key, value) :: (← flowEntries fuel)
      | _ => failure

end

/-! Block style -/

/-- Whether the block collection of a column goes on here. What stands further right belongs to
no collection. -/
def continues (column : Nat) : Reading Bool := do
  skipGap false
  let place ← get
  if place.isEnd || place.column < column then return false
  else if place.column = column && place.fresh then return true
  else failure

/-- What an indicator introduces: a node on its line, or on the lines below further to the
right than `column`; otherwise null. -/
def introduced (column : Nat) (node : Reading Datum) : Reading Datum := do
  let line := (← get).line
  skipGap false
  let place ← get
  if place.isEnd || (place.line ≠ line && place.column ≤ column) then return .null else node

/-- Pass over the colon after a key that started on `line`. -/
def passColon (line : Nat) : Reading Unit := do
  let place := (← get).next false
  if place.line ≠ line || !place.isIndicator ':' then failure
  set place
  pass 1
  setFresh false

mutual

/-- A node of a block collection: a list, a map, or anything else that stands on its own;
`least` is the least column of its continuation lines, `fuel` bounds the work. -/
def blockNode : Nat → Nat → Reading Datum
  | 0, _ => failure
  | fuel + 1, least => do
    let start ← get
    if start.isIndicator '-' then
      if start.fresh then return .list (← blockItems fuel start.column false) else failure
    else
      match start.rest with
      | '[' :: _ =>
        let node ← flowNode (2 * start.rest.length)
        setFresh false
        return node
      | '{' :: _ =>
        let node ← flowNode (2 * start.rest.length)
        setFresh false
        return node
      | _ =>
        let node ← scalar false least
        let place := (← get).next false
        if place.line = start.line && place.isIndicator ':' then
          if start.fresh then
            passColon start.line
            return .map (← blockEntries fuel start.column node)
          else failure
        else return node

/-- The items of a list whose dashes stand in a column. A list that shares its column with the
map around it ends where the map goes on. -/
def blockItems : Nat → Nat → Bool → Reading (List Datum)
  | 0, _, _ => failure
  | fuel + 1, column, shared => do
    pass 1
    setFresh true
    let item ← introduced column (blockNode fuel (column + 1))
    if ← continues column then
      if (← get).isIndicator '-' then return item :: (← blockItems fuel column shared)
      else if shared then return [item]
      else failure
    else return [item]

/-- The entries of a map whose keys stand in a column, after its first key and the colon. The
value of a key may be a list in the same column. -/
def blockEntries : Nat → Nat → Datum → Reading (List (Datum × Datum))
  | 0, _, _ => failure
  | fuel + 1, column, key => do
    let line := (← get).line
    let below := (← get).next false
    let value ← do
      if below.line ≠ line && !below.isEnd && below.column = column && below.isIndicator '-' then
        set below
        pure (Datum.list (← blockItems fuel column true))
      else introduced column (blockNode fuel (column + 1))
    if ← continues column then
      let start := (← get).line
      let next ← scalar false (column + 1)
      passColon start
      return (key, value) :: (← blockEntries fuel column next)
    else return [(key, value)]

end

/-- Pass over a document marker, if it stands here. -/
def passMarker (marker : String) : Reading Unit := do
  skipGap false
  if (← get).isMarker marker then
    pass marker.length
    setFresh false

def document : Reading Datum := do
  passMarker "---"
  skipGap false
  let place ← get
  let node ← if place.isEnd then pure .null else blockNode (2 * place.rest.length + 1) 0
  passMarker "..."
  skipGap false
  if (← get).rest.isEmpty then return node else failure

end RelayWorkbench.Markup.Yaml.Reading
