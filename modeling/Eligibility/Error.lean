import Eligibility.Service.Basic

namespace Eligibility

inductive Error where
  | parse (e : ParseError)
  | combine (e : CombineError)
  | store (e : StoreError)
  | service (e : ServiceError)
  deriving DecidableEq

namespace Error

def message : Error → String
  | parse e => e.message
  | combine e => e.message
  | store e => e.message
  | service e => e.message

end Error

end Eligibility
