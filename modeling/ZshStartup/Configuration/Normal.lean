import ZshStartup.Configuration.Legacy
import ZshStartup.Configuration.Encoding
import ZshStartup.Configuration.Identity
import ZshStartup.Json.Reader
import ZshStartup.Json.Printer

/-! From documents to configurations. Any JSON value yields a configuration: older documents are
brought up to date, missing parts take their defaults, and plugins and variables are linked.
-/

namespace ZshStartup.Configuration

/-- What a JSON value says of a configuration, with ids and owners as they are written. A value that is
no object says nothing, and the default stands in for what is not said.
-/
def ofDocument (raw : Json) : Configuration :=
  let base := toFields {}
  ofFields (base.overlay (Legacy.migrate raw.fields))

/-- The configuration that a JSON value describes; a value that is no object describes the default. -/
def normalize (raw : Json) : Configuration :=
  (ofDocument raw).assignIds.linkOwners

/-- The configuration that a text describes. Only a text that is not JSON describes none. -/
def parse (text : String) : Except Json.ReadError Configuration :=
  (Json.read text).map normalize

/-- The text that a configuration is stored as. -/
def serialize (config : Configuration) : String :=
  config.toJson.pretty

end ZshStartup.Configuration
