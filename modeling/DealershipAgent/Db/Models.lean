import DealershipAgent.Py.Num

/-!
# The tables

`db/models.py`: the rows of the tables with Row-Level Security, and what the code reads of
`vehicles`. A timestamp counts microseconds, an amount of money cents.
-/

namespace DealershipAgent

open Py

abbrev Timestamp : Type := Int

inductive OrderStatus where
  | pending
  | confirmed
  | inPreparation
  | readyForDelivery
  | delivered
  | cancelled
  | refunded
deriving DecidableEq, Repr

/-- The label of the status. -/
def OrderStatus.value : OrderStatus → Str
  | pending => "pending"
  | confirmed => "confirmed"
  | inPreparation => "in_preparation"
  | readyForDelivery => "ready_for_delivery"
  | delivered => "delivered"
  | cancelled => "cancelled"
  | refunded => "refunded"

inductive TestDriveStatus where
  | requested
  | confirmed
  | completed
  | cancelled
deriving DecidableEq, Repr

/-- Public catalog data: no Row-Level Security. -/
structure Vehicle where
  id : Int
  year : Int
  make : Str
  model : Str
deriving DecidableEq, Repr

structure Customer where
  id : Int
  externalRef : Str
  email : Str
  fullName : Str
  phone : Option Str
  createdAt : Timestamp
deriving DecidableEq, Repr

structure Order where
  id : Int
  orderRef : Str
  customerId : Int
  vehicleId : Int
  status : OrderStatus
  totalAmount : Int
  createdAt : Timestamp
  expectedDeliveryDate : Option Timestamp
  actualDeliveryDate : Option Timestamp
deriving DecidableEq, Repr

structure OrderStatusHistory where
  id : Int
  orderId : Int
  fromStatus : Option OrderStatus
  toStatus : OrderStatus
  changedAt : Timestamp
  note : Option Str
deriving DecidableEq, Repr

structure TestDriveBooking where
  id : Int
  bookingRef : Str
  customerId : Int
  vehicleId : Int
  scheduledAt : Timestamp
  status : TestDriveStatus
deriving DecidableEq, Repr

structure Escalation where
  id : Int
  customerId : Int
  conversationId : Str
  summary : Str
  reason : Str
  createdAt : Timestamp
  resolvedAt : Option Timestamp
deriving DecidableEq, Repr

structure Conversation where
  id : Int
  conversationRef : Str
  customerId : Int
  createdAt : Timestamp
  updatedAt : Timestamp
deriving DecidableEq, Repr

structure ConversationMessage where
  id : Int
  conversationId : Int
  role : Str
  content : Str
  createdAt : Timestamp
deriving DecidableEq, Repr

/-- The rows of each table, in the table's order. -/
structure Database where
  customers : List Customer := []
  orders : List Order := []
  orderStatusHistory : List OrderStatusHistory := []
  testDriveBookings : List TestDriveBooking := []
  escalations : List Escalation := []
  conversations : List Conversation := []
  conversationMessages : List ConversationMessage := []
  vehicles : List Vehicle := []
deriving DecidableEq, Repr

/-- A row of a table with Row-Level Security. -/
inductive Row where
  | customer (r : Customer)
  | order (r : Order)
  | orderStatusHistory (r : OrderStatusHistory)
  | testDriveBooking (r : TestDriveBooking)
  | escalation (r : Escalation)
  | conversation (r : Conversation)
  | conversationMessage (r : ConversationMessage)
deriving DecidableEq, Repr

/-- `INSERT` -/
def Database.insert (db : Database) : Row → Database
  | .customer r => { db with customers := db.customers ++ [r] }
  | .order r => { db with orders := db.orders ++ [r] }
  | .orderStatusHistory r => { db with orderStatusHistory := db.orderStatusHistory ++ [r] }
  | .testDriveBooking r => { db with testDriveBookings := db.testDriveBookings ++ [r] }
  | .escalation r => { db with escalations := db.escalations ++ [r] }
  | .conversation r => { db with conversations := db.conversations ++ [r] }
  | .conversationMessage r => { db with conversationMessages := db.conversationMessages ++ [r] }

end DealershipAgent
