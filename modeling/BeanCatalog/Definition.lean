import BeanCatalog.Table

namespace BeanCatalog

inductive Argument where
  | value (s : String)
  | ref (name : String)
  deriving DecidableEq, Repr

structure PropertyValue where
  name : Option String
  argument : Argument
  deriving DecidableEq, Repr

structure Definition where
  className : Option String := none
  scope : String := "singleton"
  lazyInit : Bool := false
  autowire : String := "no"
  autowireCandidate : Bool := true
  initMethod : Option String := none
  destroyMethod : Option String := none
  dependsOn : List String := []
  properties : List PropertyValue := []
  constructorArgs : List PropertyValue := []
  description : Option String := none
  attributes : Table String := []
  resource : Option String := none
  deriving DecidableEq, Repr

structure Holder where
  name : String
  definition : Definition
  aliases : List String
  deriving DecidableEq, Repr

end BeanCatalog
