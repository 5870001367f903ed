import SqlDialect.Environment
import SqlDialect.Server.Report
import SqlDialect.Text.Blank

/-!
This module contains the description of a server by environment variables.
-/

namespace SqlDialect

inductive ServerVariableError where
  | missing (name : String)
  | noProtocol (name url : String)
  deriving DecidableEq

def ServerVariableError.message : ServerVariableError → String
  | .missing name => s!"Missing required environment variable: {name}"
  | .noProtocol name url => s!"Invalid configuration: {name} has no protocol prefix: {url}"

namespace ServerReport

def productVariable : String := "QUARRY_DB_PRODUCT"
def versionVariable : String := "QUARRY_DB_VERSION"
def urlVariable : String := "QUARRY_DB_URL"

def ofEnvironment (env : Environment) : Except ServerVariableError ServerReport := do
  let product := (env.lookup? productVariable).filter (!Text.isAllBlank ·)
  let url := (env.lookup? urlVariable).filter (!Text.isAllBlank ·)
  if product.isNone && url.isNone then
    throw (.missing productVariable)
  if let some url := url then
    if (Protocol.ofUrl? url).isNone then
      throw (.noProtocol urlVariable url)
  return {
    product := product.getD ""
    version := (env.lookup? versionVariable).getD ""
    url := url.getD "" }

end ServerReport

end SqlDialect
