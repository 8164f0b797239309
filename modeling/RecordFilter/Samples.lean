import RecordFilter.Schema.Registry
import RecordFilter.Value.Data

/-!
# Sample types

A small family of types with every shape: people and their addresses, orders with lines, a tree of
categories, and audit entries that are hidden from discovery.
-/

namespace RecordFilter

/-- The sample types that have a name on the command line. -/
inductive Sample where
  | person | address | order | category | audit
deriving Repr, DecidableEq

namespace Sample

/-- All of them, in the order in which they are marked. -/
def all : List Sample := [person, address, order, category, audit]

/-- The name on the command line. -/
def word : Sample → String
  | person => "person"
  | address => "address"
  | order => "order"
  | category => "category"
  | audit => "audit"

/-- The sample type with a name on the command line. -/
def ofWord? (s : String) : Option Sample := all.find? (·.word = s)

/-- The name of the type. -/
def typeName : Sample → String
  | person => "Person"
  | address => "Address"
  | order => "Order"
  | category => "Category"
  | audit => "AuditEntry"

/-- The type. -/
def type (s : Sample) : TypeExpr := .defined s.typeName

/-! ### Definitions -/

/-- A field without marker. -/
def plain (name : String) (type : TypeExpr) : FieldDescriptor := ⟨name, false, type⟩

/-- A field that may be absent. -/
def perhaps (name : String) (type : TypeExpr) : FieldDescriptor := ⟨name, false, .optional type⟩

/-- A person; the manager is a person too, and the hash of the password is hidden. -/
def personFields : List FieldDescriptor := [
  plain "id" (.atomic .uuid),
  plain "name" (.atomic .string),
  plain "age" (.atomic (.integer .int32)),
  perhaps "externalId" (.atomic .string),
  plain "status" (.defined "Status"),
  perhaps "address" (.defined "Address"),
  plain "tags" (.list (.atomic .string)),
  perhaps "bornOn" (.atomic .date),
  perhaps "manager" (.boxed (.defined "Person")),
  ⟨"passwordHash", true, .atomic .string⟩]

/-- An address. -/
def addressFields : List FieldDescriptor := [
  plain "street" (.atomic .string),
  plain "city" (.atomic .string),
  perhaps "postalCode" (.atomic .string),
  plain "country" (.atomic .string)]

/-- A line of an order. -/
def orderLineFields : List FieldDescriptor := [
  plain "sku" (.atomic .string),
  plain "quantity" (.atomic (.integer .uint16)),
  plain "unitPrice" (.atomic .decimal)]

/-- An order. -/
def orderFields : List FieldDescriptor := [
  plain "id" (.atomic .uuid),
  plain "number" (.atomic (.integer .uint64)),
  plain "placedAt" (.atomic .dateTime),
  perhaps "shippedAt" (.atomic .dateTimeOffset),
  perhaps "deliveryCutoff" (.atomic .time),
  plain "total" (.atomic .decimal),
  perhaps "discount" (.atomic .float64),
  plain "paid" (.atomic .boolean),
  perhaps "priority" (.atomic .char),
  plain "lines" (.list (.defined "OrderLine")),
  perhaps "customer" (.defined "Person")]

/-- A category of a tree of categories. -/
def categoryFields : List FieldDescriptor := [
  plain "id" (.atomic (.integer .int64)),
  plain "name" (.atomic .string),
  perhaps "parent" (.boxed (.defined "Category")),
  plain "children" (.list (.defined "Category"))]

/-- An entry of the audit log. -/
def auditFields : List FieldDescriptor := [
  plain "actor" (.atomic .string),
  plain "action" (.atomic .string),
  plain "recordedAt" (.atomic .dateTimeOffset)]

/-- The sample types; what is not among them has no fields. -/
def family : TypeFamily
  | "Status" => .enumeration "Status" false ["Active", "Suspended", "Closed"]
  | "Person" => .composite "Person" false personFields
  | "Address" => .composite "Address" false addressFields
  | "Order" => .composite "Order" false orderFields
  | "OrderLine" => .composite "OrderLine" false orderLineFields
  | "Category" => .composite "Category" false categoryFields
  | "AuditEntry" => .composite "AuditEntry" true auditFields
  | key => .composite key false []

/-- Reads a stored item. -/
def ofDocument? (s : Sample) (d : Json.Document) : Option Value := family.decode s.type d

/-- An item as it is stored. -/
def toJson (s : Sample) (v : Value) : Json := family.encode s.type v

/-- A registry in which the sample types are marked. -/
def markedIn (r : Registry) : Registry := r.markAll family (all.map type)

end Sample

end RecordFilter
