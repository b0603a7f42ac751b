/-!
# Logging

How the events of the work are written out.
-/

namespace SvelteStories

/-- How events are logged. -/
structure LoggingConfig where
  /-- Each event is written as a JSON object. -/
  jsonLogs : Bool := false
  /-- Which events are written, unless the environment says so. -/
  defaultFilter : String := "warn"
deriving Repr, DecidableEq

namespace LoggingConfig

/-- The configuration with JSON logs switched on or off. -/
def withJsonLogs (config : LoggingConfig) (enabled : Bool) : LoggingConfig :=
  { config with jsonLogs := enabled }

/-- The configuration with another default filter. -/
def withDefaultFilter (config : LoggingConfig) (filter : String) : LoggingConfig :=
  { config with defaultFilter := filter }

end LoggingConfig

end SvelteStories
