import RelayWorkbench.Relay.ClientSchema

/-! A small schema to try things on: a connection type, unions, input objects and all three
root types. -/

namespace RelayWorkbench.Relay

/-- The sample schema as it is written. -/
def sampleSchemaText : String :=
  "schema \x7b
  query: Query
  mutation: Mutation
  subscription: Subscription
\x7d

interface Node \x7b
  id: ID!
\x7d

type Query \x7b
  viewer: Viewer
  node(id: ID!): Node
  user(id: ID!, locale: String): User
  search(text: String!, first: Int): [SearchResult!]
\x7d

type Viewer \x7b
  user: User
  items(first: Int, after: String, orderBy: ItemOrder): ItemsConnection
\x7d

type User implements Node \x7b
  id: ID!
  name: String
  avatarUrl(size: Int): String
  status: Status
  friends(first: Int, after: String): UserConnection
\x7d

type ItemsConnection \x7b
  edges: [ItemEdge]
  pageInfo: PageInfo!
\x7d

type ItemEdge \x7b
  cursor: String!
  node: Item
\x7d

type Item implements Node \x7b
  title: String
  id: ID!
\x7d

type UserConnection \x7b
  edges: [UserEdge]
  pageInfo: PageInfo!
\x7d

type UserEdge \x7b
  cursor: String!
  node: User
\x7d

type PageInfo \x7b
  hasNextPage: Boolean!
  endCursor: String
\x7d

union Status = Active | Done

type Active \x7b
  since: String
  id: ID!
\x7d

type Done \x7b
  completedAt: String
\x7d

union SearchResult = User | Item

input ItemOrder \x7b
  field: String!
  direction: Direction
  tags: [String!]
\x7d

enum Direction \x7b
  ASC
  DESC
\x7d

input UpdateUserInput \x7b
  id: ID!
  name: String
\x7d

type Mutation \x7b
  updateUser(input: UpdateUserInput!): User
  likeItem(itemId: ID!, clientMutationId: String): Item
\x7d

type Subscription \x7b
  itemUpdated(id: ID!): Item
\x7d
"

def sampleSchema : GraphQL.Schema := clientSchema [sampleSchemaText.toList]

end RelayWorkbench.Relay
