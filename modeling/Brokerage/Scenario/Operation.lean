import Brokerage.Scenario.Condition

namespace Brokerage.Scenario

inductive Event where
  | registered
  | unregistered
  | vetting (d : Direction)
  | completed (d : Direction)
  deriving DecidableEq

def Event.name : Event → String
  | .registered => "registered"
  | .unregistered => "unregistered"
  | .vetting d => d.label ++ "_pre_process"
  | .completed d => d.label ++ "_completed"

mutual

inductive Operation where
  | register (key : String)
  | unregister (id : String)
  | unregisterHandler (key : String)
  | isRegistered (id : String)
  | isHandlerRegistered (key : String)
  | unregisterAll
  | reload
  | declare (key : String) (n : Int8)
  | info (id : String)
  | handlers
  | types
  | size
  | ranking (k : Kind)
  | subscribe (name : String) (cancel : Rule) (reactions : List Reaction) (silent : Bool)
  | subscriberCount
  | setCancel (name : String) (cancel : Rule)
  | dispatch (d : Direction) (item : Item) (scope : Scope) (keep : Option String)
  | mediator (name : String)
  | can (name : String)
  | price (name : String) (volume : UInt32)
  | transact (name : String) (volume : UInt32) (keep : Option String)
  | list (name : String) (volume : UInt32) (keep : Option String)
  | record (name : String)
  | complete (name : String)
  | completeThreads (name : String) (n : Nat)
  | recordDebug (name : String)
  | setPriority (id : String) (n : Int32)
  | setDisabled (id : String) (on : Bool)
  | setGenerous (id : String) (on : Bool)
  | configClearPriority (id : String)
  | configQuery (id : String) (declared : Int8)
  | configEnsure (id : String) (n : Int32)
  | configTable
  | configDirty
  | configSave
  | configDisk
  | configWrite (bytes : ByteArray)
  | configDelete

inductive Reaction where
  | on (event : Event) (ops : List Operation) (times : Nat)

end

namespace Operation

def name : Operation → String
  | .register _ => "register"
  | .unregister _ => "unregister"
  | .unregisterHandler _ => "unregister_handler"
  | .isRegistered _ => "is_registered"
  | .isHandlerRegistered _ => "is_handler_registered"
  | .unregisterAll => "unregister_all"
  | .reload => "reload"
  | .declare _ _ => "declare"
  | .info _ => "info"
  | .handlers => "handlers"
  | .types => "types"
  | .size => "len"
  | .ranking _ => "ranking"
  | .subscribe _ _ _ _ => "subscribe"
  | .subscriberCount => "subscriber_count"
  | .setCancel _ _ => "set_cancel"
  | .dispatch _ _ _ _ => "dispatch"
  | .mediator _ => "mediator"
  | .can _ => "can"
  | .price _ _ => "price"
  | .transact _ _ _ => "transact"
  | .list _ _ _ => "list"
  | .record _ => "record"
  | .complete _ => "complete"
  | .completeThreads _ _ => "complete_threads"
  | .recordDebug _ => "record_debug"
  | .setPriority _ _ => "set_priority"
  | .setDisabled _ _ => "set_disabled"
  | .setGenerous _ _ => "set_generous"
  | .configClearPriority _ => "config_clear_priority"
  | .configQuery _ _ => "config_query"
  | .configEnsure _ _ => "config_ensure"
  | .configTable => "config_table"
  | .configDirty => "config_dirty"
  | .configSave => "config_save"
  | .configDisk => "config_disk"
  | .configWrite _ => "config_write"
  | .configDelete => "config_delete"

def sparesHandlers : Operation → Bool
  | .subscribe _ _ _ _ | .subscriberCount | .setCancel _ _ => true
  | .setPriority _ _ | .setDisabled _ _ | .setGenerous _ _ => true
  | .configClearPriority _ | .configQuery _ _ | .configEnsure _ _ | .configTable | .configDirty
  | .configSave | .configDisk | .configWrite _ | .configDelete => true
  | _ => false

def movesHandlers : Operation → Bool
  | .register _ | .unregister _ | .unregisterHandler _ | .unregisterAll | .reload => true
  | _ => false

end Operation

inductive Step where
  | volume (n : UInt32)
  | requestedVolume
  | value (a : Amount)
  | pricedValue
  | listing
  | startListing
  | failUnlessFeasible (reason : String)
  | success
  | failure (reason : String)
  | successWith (label : String) (ops : List Operation)

end Brokerage.Scenario
