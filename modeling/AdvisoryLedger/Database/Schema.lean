import AdvisoryLedger.Database.Statement

namespace AdvisoryLedger.Schema

def createTable (name : String) (clauses : List String) : String :=
  "CREATE TABLE IF NOT EXISTS " ++ name ++ " ( " ++ Statement.commaJoined clauses ++ " )"

def advisories : String :=
  createTable "vulnerabilities"
    ["id BIGSERIAL PRIMARY KEY", "source VARCHAR(32) NOT NULL", "vuln_id VARCHAR(64) NOT NULL",
      "title TEXT", "sub_title TEXT", "description TEXT", "detail TEXT", "recommendation TEXT",
      "\"references\" TEXT", "credits TEXT", "created TIMESTAMPTZ", "published TIMESTAMPTZ",
      "updated TIMESTAMPTZ", "cwes INTEGER[] NOT NULL DEFAULT '\x7b\x7d'", "severity VARCHAR(16)",
      "cvss_v2_base_score DOUBLE PRECISION", "cvss_v2_impact_sub_score DOUBLE PRECISION",
      "cvss_v2_exploitability_sub_score DOUBLE PRECISION", "cvss_v2_vector TEXT",
      "cvss_v3_base_score DOUBLE PRECISION", "cvss_v3_impact_sub_score DOUBLE PRECISION",
      "cvss_v3_exploitability_sub_score DOUBLE PRECISION", "cvss_v3_vector TEXT",
      "owasp_rr_likelihood_score DOUBLE PRECISION", "owasp_rr_technical_impact_score DOUBLE PRECISION",
      "owasp_rr_business_impact_score DOUBLE PRECISION", "owasp_rr_vector TEXT",
      "vulnerable_versions TEXT", "patched_versions TEXT", "epss_score DOUBLE PRECISION",
      "epss_percentile DOUBLE PRECISION", "UNIQUE (source, vuln_id)"]

def ranges : String :=
  createTable "affected_software"
    ["id BIGSERIAL PRIMARY KEY", "cpe23 TEXT", "part VARCHAR(8)", "vendor TEXT", "product TEXT",
      "version TEXT", "update TEXT", "edition TEXT", "language TEXT", "sw_edition TEXT",
      "target_sw TEXT", "target_hw TEXT", "other TEXT", "version_start_including TEXT",
      "version_start_excluding TEXT", "version_end_including TEXT", "version_end_excluding TEXT",
      "vulnerable BOOLEAN NOT NULL DEFAULT true"]

def associations : String :=
  createTable "vulnerability_affected_software"
    ["vulnerability_id BIGINT NOT NULL REFERENCES vulnerabilities(id) ON DELETE CASCADE",
      "affected_software_id BIGINT NOT NULL REFERENCES affected_software(id) ON DELETE CASCADE",
      "PRIMARY KEY (vulnerability_id, affected_software_id)"]

def attributions : String :=
  createTable "affected_version_attributions"
    ["id BIGSERIAL PRIMARY KEY",
      "vulnerability_id BIGINT NOT NULL REFERENCES vulnerabilities(id) ON DELETE CASCADE",
      "affected_software_id BIGINT NOT NULL REFERENCES affected_software(id) ON DELETE CASCADE",
      "source VARCHAR(32) NOT NULL", "first_seen TIMESTAMPTZ NOT NULL",
      "last_seen TIMESTAMPTZ NOT NULL", "UNIQUE (vulnerability_id, affected_software_id, source)"]

def config : String :=
  createTable "config_properties"
    ["group_name VARCHAR(255) NOT NULL", "property_name VARCHAR(255) NOT NULL", "property_value TEXT",
      "PRIMARY KEY (group_name, property_name)"]

def statements : List Statement :=
  [.define advisories, .define ranges,
    .define "CREATE INDEX IF NOT EXISTS idx_affected_software_cpe23 ON affected_software (cpe23)",
    .define associations, .define attributions, .define config]

end AdvisoryLedger.Schema
